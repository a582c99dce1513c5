/-
# Dayfinch.Invoices.Team -- invoices of team members, by hand and from tracked time

A member writes an invoice with one line, or has one made from the time of a period. The second takes up
to four transactions: the time that is on no invoice yet is read, an invoice with a placeholder line is
created, the placeholder is replaced by a line for each project with the time behind it, and where that
fails the invoice is deleted again. A draft may be edited, submitted and deleted; a submitted invoice is
paid or voided.

Quantities and prices are `NUMERIC` with two decimals: integers, in hundredths. What is rounded on the
way in is a rational number. The upper case of names and the text of a UUID come from outside.
-/
import Mathlib.Data.Rat.Floor
import Dayfinch.Library.Rounding
import Dayfinch.Library.Run
import Dayfinch.Library.Text
import Dayfinch.Schema

namespace Dayfinch

open Library (updateWhere decimal28)
open Library.Text (truncate strip)
open Library.Calendar (yearOfDay daysBeforeYear epochOffset)

/-! ## Tables -/

/-- `team_invoices.status`. -/
inductive InvoiceStatus
  | draft | submitted | partiallyPaid | paid | void
  deriving DecidableEq, Repr

/-- `team_invoices`. -/
structure TeamInvoice where
  id : Nat
  number : String
  userId : Nat
  issuedOn : Int
  dueOn : Int
  status : InvoiceStatus
  currency : String
  purchaseOrder : String
  notes : String
  paidAmount : Int
  deriving DecidableEq, Repr

/-- `team_invoice_lines`; `tracked` is `source='tracked'`. -/
structure TeamInvoiceLine where
  id : Nat
  invoiceId : Nat
  projectId : Option Nat
  description : String
  quantity : Int
  unitPrice : Int
  tracked : Bool
  period : Option (Int × Int)
  deriving DecidableEq, Repr

/-- `source_type` and `source_id`. -/
inductive TimeSourceKey
  | segment (id : Nat)
  | manual (id : Nat)
  deriving DecidableEq, Repr

/-- `team_invoice_time_sources`. -/
structure TimeSource where
  lineId : Nat
  key : TimeSourceKey
  seconds : Int
  deriving DecidableEq, Repr

/-- `users`, as invoices read it. -/
structure InvoiceOwner where
  id : Nat
  email : String
  fullName : String
  enabled : Bool
  payRate : Int
  deriving DecidableEq, Repr

/-- The tables of invoices, and those they read: `work`, the members and the names of projects. -/
structure InvoiceStore where
  work : Database := {}
  owners : List InvoiceOwner := []
  projectNames : List (Nat × String) := []
  invoices : List TeamInvoice := []
  lines : List TeamInvoiceLine := []
  sources : List TimeSource := []
  nextId : Nat := 0
  deriving DecidableEq, Repr

namespace InvoiceStore

def getInvoice (s : InvoiceStore) (invoiceId : Nat) : Option TeamInvoice :=
  s.invoices.find? (·.id == invoiceId)

/-- The lines of an invoice. -/
def linesOf (s : InvoiceStore) (invoiceId : Nat) : List TeamInvoiceLine :=
  s.lines.filter (·.invoiceId == invoiceId)

/-- `SUM(quantity*unit_price)`, in ten-thousandths. -/
def totalOf (s : InvoiceStore) (invoiceId : Nat) : Int :=
  ((s.linesOf invoiceId).map fun line => line.quantity * line.unitPrice).sum

/-- `DELETE FROM team_invoice_lines`; the sources go with their lines. -/
def deleteLines (s : InvoiceStore) (invoiceId : Nat) : InvoiceStore :=
  { s with
    lines := s.lines.filter (·.invoiceId != invoiceId)
    sources := s.sources.filter fun source =>
      !(s.linesOf invoiceId).any (·.id == source.lineId) }

/-- `DELETE FROM team_invoices`; the lines and sources go with the invoice. -/
def deleteInvoice (s : InvoiceStore) (invoiceId : Nat) : InvoiceStore :=
  { s.deleteLines invoiceId with invoices := s.invoices.filter (·.id != invoiceId) }

end InvoiceStore

/-! ## Numbers -/

/-- Rounding to an integer as PostgreSQL does, half away from zero. -/
def roundHalfAway (x : Rat) : Int := if 0 ≤ x then ⌊x + 1 / 2⌋ else -⌊-x + 1 / 2⌋

/-- A value stored as `NUMERIC(precision,2)`, in hundredths. -/
def toNumeric (precision : Nat) (x : Rat) : Except Error Int :=
  let cents := roundHalfAway (x * 100)
  if cents.natAbs < 10 ^ precision then .ok cents else .error .dataException

/-- `(Decimal(seconds) / Decimal(3600)).quantize(Decimal("0.01"))`, in hundredths: half to even. -/
def hoursHundredths (seconds : Int) : Int :=
  let quotient := seconds / 36
  let remainder := seconds % 36
  if remainder < 18 ∨ remainder = 18 ∧ quotient % 2 = 0 then quotient else quotient + 1

/-- `EXTRACT(EPOCH FROM (ended_at-started_at))::INTEGER`. -/
def epochInteger (startedAt endedAt : Int) : Int := roundHalfAway ((endedAt - startedAt : Int) / 1000000)

/-- `issued_on.year`. -/
def yearOf (d : Int) : Int := yearOfDay (d + epochOffset)

/-- `make_date(year,1,1)`. -/
def firstOfYear (year : Int) : Int := daysBeforeYear year - epochOffset

/-- `str.upper` and the text of a UUID. -/
structure InvoiceWords where
  upper : String → String
  uuidText : Nat → String

/-- The initials of a name, or `DF`. -/
def initials (words : InvoiceWords) (label : String) : String :=
  let parts := ((words.upper label).toList.splitOnP Library.Text.isSpace).filter fun part => !part.isEmpty
  let letters := String.ofList (parts.filterMap List.head?)
  if letters = "" then "DF" else truncate 4 letters

/-- `full_name or email.split("@", 1)[0]`. -/
def InvoiceOwner.label (owner : InvoiceOwner) : String :=
  if owner.fullName = "" then String.ofList (owner.email.toList.takeWhile (· != '@')) else owner.fullName

/-- The number of the owner's next invoice of a year. -/
def invoiceNumber (words : InvoiceWords) (owner : InvoiceOwner) (year : Int) (sequence : Nat) : String :=
  initials words owner.label ++ "-" ++ toString year ++ "-" ++
    words.upper (truncate 6 (words.uuidText owner.id)) ++ "-" ++
    String.leftpad 4 '0' (toString sequence)

/-! ## Invoices by hand -/

/-- The arguments of `create_team_invoice`. -/
structure NewInvoice where
  userId : Nat
  issuedOn : Int
  dueOn : Int
  description : String
  quantity : Rat
  unitPrice : Rat
  currency : String
  purchaseOrder : String
  notes : String

/-- `create_team_invoice`. -/
def createTeamInvoice (words : InvoiceWords) (s : InvoiceStore) (new : NewInvoice) :
    Except Error (InvoiceStore × Nat) := do
  raiseIf (new.dueOn < new.issuedOn ∨ new.quantity ≤ 0 ∨ new.unitPrice < 0)
    "Invoice dates, quantity, or rate are invalid"
  raiseIf (strip new.description = "") "Invoice line description is required"
  match s.owners.find? fun owner => owner.id == new.userId && owner.enabled with
  | none => .error (.valueError "Invoice owner not found")
  | some owner =>
    let year := yearOf new.issuedOn
    let sequence := (s.invoices.filter fun invoice =>
      invoice.userId == new.userId && firstOfYear year ≤ invoice.issuedOn &&
        invoice.issuedOn < firstOfYear (year + 1)).length + 1
    let invoice : TeamInvoice :=
      { id := s.nextId, number := invoiceNumber words owner year sequence, userId := new.userId,
        issuedOn := new.issuedOn, dueOn := new.dueOn, status := .draft,
        currency := words.upper (truncate 3 new.currency),
        purchaseOrder := truncate 120 (strip new.purchaseOrder),
        notes := truncate 1000 (strip new.notes), paidAmount := 0 }
    raiseIf (s.invoices.any (·.number == invoice.number))
      "Invoice number or time source is already in use"
    let quantity ← toNumeric 12 new.quantity
    let unitPrice ← toNumeric 14 new.unitPrice
    if quantity ≤ 0 then .error .checkViolation
    else
      let line : TeamInvoiceLine :=
        { id := s.nextId + 1, invoiceId := s.nextId, projectId := none,
          description := truncate 500 (strip new.description), quantity, unitPrice, tracked := false,
          period := none }
      return ({ s with
        invoices := s.invoices ++ [invoice]
        lines := s.lines ++ [line]
        nextId := s.nextId + 2 }, invoice.id)

/-! ## Invoices from tracked time -/

/-- The arguments of `create_team_invoice_from_time`. -/
structure TimeInvoice where
  userId : Nat
  issuedOn : Int
  dueOn : Int
  periodStart : Int
  periodEnd : Int
  projectId : Option Nat
  currency : String
  purchaseOrder : String
  notes : String
  deriving DecidableEq, Repr

/-- A row of the query for time that is on no invoice. -/
structure UninvoicedTime where
  key : TimeSourceKey
  projectId : Option Nat
  seconds : Int
  deriving DecidableEq, Repr

/-- The query, before the projects are grouped. It has no order; here the segments come first. -/
def uninvoicedTime (s : InvoiceStore) (call : TimeInvoice) : List UninvoicedTime :=
  let inPeriod (startedAt : Int) : Bool :=
    call.periodStart ≤ dateOf startedAt && dateOf startedAt ≤ call.periodEnd
  let invoiced (key : TimeSourceKey) : Bool := s.sources.any (·.key == key)
  let segments := s.work.segments.filterMap fun segment =>
    match segment.endedAt, s.work.getWorkSession segment.sessionId with
    | some endedAt, some session =>
      if session.userId = some call.userId ∧ inPeriod segment.startedAt ∧
          (call.projectId = none ∨ session.projectId = call.projectId) ∧
          ¬ invoiced (.segment segment.id) then
        some { key := .segment segment.id, projectId := session.projectId,
               seconds := epochInteger segment.startedAt endedAt }
      else none
    | _, _ => none
  let manual := s.work.manualTimeEntries.filterMap fun entry =>
    if entry.userId = call.userId ∧ entry.status = .approved ∧ inPeriod entry.startedAt ∧
        (call.projectId = none ∨ some entry.projectId = call.projectId) ∧
        ¬ invoiced (.manual entry.id) then
      some { key := .manual entry.id, projectId := some entry.projectId,
             seconds := epochInteger entry.startedAt entry.endedAt }
    else none
  segments ++ manual

/-- The time of a project. -/
structure ProjectTime where
  projectId : Nat
  sources : List UninvoicedTime
  deriving DecidableEq, Repr

/-- `grouped`: the rows with a project and some time, by project in the order in which they appear. -/
def groupByProject (rows : List UninvoicedTime) : List ProjectTime :=
  let kept := rows.filter fun row => row.projectId.isSome && 0 < row.seconds
  (kept.filterMap (·.projectId)).eraseDups.map fun projectId =>
    { projectId, sources := kept.filter (·.projectId == some projectId) }

/-- The first transaction: the owner's rate and the time. A span that is out of the range of `INTEGER`
makes the query fail. -/
def selectTime (s : InvoiceStore) (call : TimeInvoice) : Except Error (Int × List ProjectTime) := do
  raiseIf (call.periodEnd < call.periodStart) "Invoice period is invalid"
  match s.owners.find? fun owner => owner.id == call.userId && owner.enabled with
  | none => .error (.valueError "Invoice owner not found")
  | some owner =>
    let rows := uninvoicedTime s call
    if rows.any fun row => row.seconds < -2147483648 || 2147483647 < row.seconds then
      .error .dataException
    else
      let groups := groupByProject rows
      raiseIf (groups = []) "No uninvoiced completed time matches this period"
      return (owner.payRate, groups)

/-- The second transaction: the invoice with its placeholder line. -/
def createForTime (words : InvoiceWords) (s : InvoiceStore) (call : TimeInvoice) :
    Except Error (InvoiceStore × Nat) :=
  createTeamInvoice words s
    { userId := call.userId, issuedOn := call.issuedOn, dueOn := call.dueOn,
      description := "Tracked time", quantity := 1, unitPrice := 0, currency := call.currency,
      purchaseOrder := call.purchaseOrder, notes := call.notes }

/-- `INSERT INTO team_invoice_time_sources`. -/
def insertSource (s : InvoiceStore) (source : TimeSource) : Except Error InvoiceStore :=
  if s.sources.any (·.key == source.key) then .error .uniqueViolation
  else .ok { s with sources := s.sources ++ [source] }

/-- The line of a project, with its sources. -/
def insertProjectTime (call : TimeInvoice) (payRate : Int) (invoiceId : Nat) (s : InvoiceStore)
    (group : ProjectTime) : Except Error InvoiceStore :=
  let quantity := hoursHundredths (group.sources.map (·.seconds)).sum
  if quantity ≤ 0 then .ok s
  else
    match s.projectNames.find? (·.1 == group.projectId) with
    | none => .error .typeError
    | some (_, name) =>
      if (s.getInvoice invoiceId).isNone then .error .foreignKeyViolation
      else if 10 ^ 12 ≤ quantity then .error .dataException
      else if payRate < 0 then .error .checkViolation
      else
        let line : TeamInvoiceLine :=
          { id := s.nextId, invoiceId, projectId := some group.projectId,
            description := "Tracked time — " ++ name, quantity, unitPrice := payRate, tracked := true,
            period := some (call.periodStart, call.periodEnd) }
        (group.sources.map fun row => { lineId := line.id, key := row.key, seconds := row.seconds }).foldlM
          insertSource { s with lines := s.lines ++ [line], nextId := s.nextId + 1 }

/-- The third transaction: the placeholder is replaced by the tracked lines. -/
def writeTracked (s : InvoiceStore) (call : TimeInvoice) (payRate : Int) (groups : List ProjectTime)
    (invoiceId : Nat) : Except Error InvoiceStore := do
  let s ← groups.foldlM (insertProjectTime call payRate invoiceId) (s.deleteLines invoiceId)
  raiseIf (s.linesOf invoiceId = []) "Tracked time is too short to invoice"
  return s

/-! ## Drafts, payments and ends -/

/-- `submit_team_invoice`. -/
def submitTeamInvoice (s : InvoiceStore) (invoiceId userId : Nat) : Except Error InvoiceStore := do
  let selected (invoice : TeamInvoice) : Bool :=
    invoice.id == invoiceId && invoice.userId == userId &&
      (invoice.status == .draft || invoice.status == .submitted) && s.linesOf invoice.id != []
  raiseIf (s.invoices.any selected = false) "Draft team invoice not found"
  return { s with
    invoices := updateWhere selected (fun invoice => { invoice with status := .submitted }) s.invoices }

/-- The arguments of `update_team_invoice_draft`. -/
structure DraftUpdate where
  issuedOn : Int
  dueOn : Int
  purchaseOrder : String
  notes : String
  description : Option String
  quantity : Option Rat
  unitPrice : Option Rat

/-- The manual line of a draft takes the new values. -/
def updateManualLine (s : InvoiceStore) (invoiceId : Nat) (update : DraftUpdate) :
    Except Error InvoiceStore :=
  match update.description with
  | none => .ok s
  | some description =>
    match update.quantity, update.unitPrice with
    | none, _ => .error (.valueError "Manual line description and quantity are required")
    | some quantity, unitPrice? => do
      raiseIf (strip description = "" ∨ quantity ≤ 0) "Manual line description and quantity are required"
      match unitPrice? with
      | none => .error (.valueError "Manual line rate is invalid")
      | some unitPrice =>
        raiseIf (unitPrice < 0) "Manual line rate is invalid"
        let selected (line : TeamInvoiceLine) : Bool := line.invoiceId == invoiceId && !line.tracked
        let storedQuantity ← toNumeric 12 quantity
        let storedPrice ← toNumeric 14 unitPrice
        if s.lines.any selected && storedQuantity ≤ 0 then .error .checkViolation
        else
          raiseIf ((s.lines.filter selected).length ≠ 1)
            "Tracked invoice lines cannot be manually replaced"
          return { s with
            lines := updateWhere selected
              (fun line => { line with
                description := truncate 500 (strip description)
                quantity := storedQuantity
                unitPrice := storedPrice }) s.lines }

/-- `update_team_invoice_draft`. -/
def updateTeamInvoiceDraft (s : InvoiceStore) (invoiceId userId : Nat) (update : DraftUpdate) :
    Except Error InvoiceStore := do
  raiseIf (update.dueOn < update.issuedOn) "Invoice due date cannot precede its issue date"
  raiseIf (s.invoices.any (fun invoice =>
    invoice.id == invoiceId && invoice.userId == userId && invoice.status == .draft) = false)
    "Draft team invoice not found"
  let s ← updateManualLine s invoiceId update
  return { s with
    invoices := updateWhere (·.id == invoiceId)
      (fun invoice => { invoice with
        issuedOn := update.issuedOn
        dueOn := update.dueOn
        purchaseOrder := truncate 120 (strip update.purchaseOrder)
        notes := truncate 1000 (strip update.notes) }) s.invoices }

/-- `delete_team_invoice_draft`. -/
def deleteTeamInvoiceDraft (s : InvoiceStore) (invoiceId userId : Nat) : Except Error InvoiceStore := do
  raiseIf (s.invoices.any (fun invoice =>
    invoice.id == invoiceId && invoice.userId == userId && invoice.status == .draft) = false)
    "Draft team invoice not found"
  return s.deleteInvoice invoiceId

/-- `record_team_invoice_payment`, without the payment's own row; the sums are `Decimal`s. -/
def recordTeamInvoicePayment (s : InvoiceStore) (invoiceId : Nat) (amount : Rat) :
    Except Error InvoiceStore := do
  raiseIf (amount ≤ 0) "Payment amount must be positive"
  match s.getInvoice invoiceId with
  | none => .error (.valueError "Payable team invoice not found")
  | some invoice =>
    raiseIf (invoice.status ≠ .submitted ∧ invoice.status ≠ .partiallyPaid)
      "Payable team invoice not found"
    let total : Rat := s.totalOf invoiceId / 10000
    let paid : Rat := invoice.paidAmount / 100
    raiseIf (decimal28 (total - paid) < amount) "Payment exceeds the invoice balance"
    let newPaid := decimal28 (paid + amount)
    let stored ← toNumeric 14 amount
    let paidAmount ← toNumeric 14 newPaid
    if stored ≤ 0 then .error .checkViolation
    else
      return { s with
        invoices := updateWhere (·.id == invoiceId)
          (fun invoice => { invoice with
            paidAmount
            status := if newPaid = total then .paid else .partiallyPaid }) s.invoices }

/-- `void_team_invoice`. -/
def voidTeamInvoice (s : InvoiceStore) (invoiceId : Nat) : Except Error InvoiceStore := do
  let selected (invoice : TeamInvoice) : Bool :=
    invoice.id == invoiceId && invoice.status == .submitted && invoice.paidAmount == 0
  raiseIf (s.invoices.any selected = false) "Only an unpaid submitted invoice can be voided"
  return { s with
    invoices := updateWhere selected (fun invoice => { invoice with status := .void }) s.invoices }

/-! ## Steps -/

/-- Where a call of `create_team_invoice_from_time` is. `failed` is the compensation that is due, and
`raised` has the invoice that the call had created. -/
inductive TimeInvoicePhase
  | idle
  | selected (call : TimeInvoice) (payRate : Int) (groups : List ProjectTime)
  | created (call : TimeInvoice) (payRate : Int) (groups : List ProjectTime) (invoiceId : Nat)
  | failed (invoiceId : Nat) (error : Error)
  | returned (invoiceId : Nat)
  | raised (invoiceId : Option Nat) (error : Error)
  deriving DecidableEq, Repr

/-- The store, and the calls that make invoices from time. -/
structure InvoiceState where
  store : InvoiceStore
  calls : Nat → TimeInvoicePhase

/-- A transaction; `environment` is everything else that changes what invoices read. -/
inductive InvoiceOp
  | environment (work : Database) (owners : List InvoiceOwner) (projectNames : List (Nat × String))
  | createTeamInvoice (new : NewInvoice)
  | selectTime (callId : Nat) (call : TimeInvoice)
  | nextTransaction (callId : Nat)
  | submitTeamInvoice (invoiceId userId : Nat)
  | updateTeamInvoiceDraft (invoiceId userId : Nat) (update : DraftUpdate)
  | deleteTeamInvoiceDraft (invoiceId userId : Nat)
  | recordTeamInvoicePayment (invoiceId : Nat) (amount : Rat)
  | voidTeamInvoice (invoiceId : Nat)

namespace InvoiceState

/-- A call moves on. -/
def setCall (s : InvoiceState) (callId : Nat) (phase : TimeInvoicePhase) : InvoiceState :=
  { s with calls := fun id => if id = callId then phase else s.calls id }

/-- A transaction that is not part of a call; one that raises is rolled back. -/
def put (s : InvoiceState) (result : Except Error InvoiceStore) : InvoiceState :=
  match result with
  | .ok store => { s with store }
  | .error _ => s

end InvoiceState

/-- The error a call raises after its compensation, where its third transaction fails; a failure that is
neither a conflict nor a `ValueError` is not compensated. -/
def compensated : Error → Option Error
  | .uniqueViolation => some (.valueError "Some selected time was already invoiced")
  | .valueError message => some (.valueError message)
  | _ => none

/-- The next transaction of a call that has selected its time. -/
def nextTransaction (words : InvoiceWords) (s : InvoiceState) (callId : Nat) : InvoiceState :=
  match s.calls callId with
  | .selected call payRate groups =>
    match createForTime words s.store call with
    | .error error => s.setCall callId (.raised none error)
    | .ok (store, invoiceId) =>
      { s with store }.setCall callId (.created call payRate groups invoiceId)
  | .created call payRate groups invoiceId =>
    match writeTracked s.store call payRate groups invoiceId with
    | .ok store => { s with store }.setCall callId (.returned invoiceId)
    | .error error =>
      match compensated error with
      | some raised => s.setCall callId (.failed invoiceId raised)
      | none => s.setCall callId (.raised (some invoiceId) error)
  | .failed invoiceId error =>
    { s with store := s.store.deleteInvoice invoiceId }.setCall callId (.raised (some invoiceId) error)
  | _ => s

/-- One step. -/
def invoiceStep (words : InvoiceWords) (s : InvoiceState) (op : InvoiceOp) : InvoiceState :=
  match op with
  | .environment work owners projectNames => { s with store := { s.store with work, owners, projectNames } }
  | .createTeamInvoice new => s.put ((createTeamInvoice words s.store new).map (·.1))
  | .selectTime callId call =>
    match s.calls callId with
    | .idle =>
      match selectTime s.store call with
      | .ok (payRate, groups) => s.setCall callId (.selected call payRate groups)
      | .error error => s.setCall callId (.raised none error)
    | _ => s
  | .nextTransaction callId => nextTransaction words s callId
  | .submitTeamInvoice invoiceId userId => s.put (submitTeamInvoice s.store invoiceId userId)
  | .updateTeamInvoiceDraft invoiceId userId update =>
    s.put (updateTeamInvoiceDraft s.store invoiceId userId update)
  | .deleteTeamInvoiceDraft invoiceId userId => s.put (deleteTeamInvoiceDraft s.store invoiceId userId)
  | .recordTeamInvoicePayment invoiceId amount =>
    s.put (recordTeamInvoicePayment s.store invoiceId amount)
  | .voidTeamInvoice invoiceId => s.put (voidTeamInvoice s.store invoiceId)

/-- Before the first invoice. -/
def InvoiceState.start (work : Database) (owners : List InvoiceOwner)
    (projectNames : List (Nat × String)) : InvoiceState where
  store := { work, owners, projectNames }
  calls := fun _ => .idle

end Dayfinch
