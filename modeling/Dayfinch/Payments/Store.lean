/-
# Dayfinch.Payments.Store -- the payroll tables and the functions that write a delivery

A payment is a row of `payroll_payments`. Each repository function reads one row under a lock, checks
it and writes it back, so it is given in two layers: what it does to the row (`PayrollPayment.claim`,
`PayrollPayment.record`, ..), and the function on the tables, which finds the row and stores the result.

`PayrollStore` carries the two keys of the payments as fields: the primary key, and the index
`uq_payroll_direct_provider_reference`, by which no two payments of PayPal or of Wise share a reference.
`update` writes one row and fails where the index forbids it.
-/
import Dayfinch.Library.Text
import Dayfinch.Schema

namespace Dayfinch

open Library (UniqueKey orderBy updateWhere)
open Library.Text

/-! ## Tables -/

/-- `payroll_payments.status`. -/
inductive PayrollStatus
  | draft | processing | paid | failed | reversed
  deriving DecidableEq, Repr

/-- `payroll_payments.provider`, and `settings.payment_provider`. -/
inductive PayrollProvider
  | manual | webhook | paypal | wise
  deriving DecidableEq, Repr

/-- The column's text. -/
def PayrollProvider.name : PayrollProvider → String
  | .manual => "manual"
  | .webhook => "webhook"
  | .paypal => "paypal"
  | .wise => "wise"

/-- `payroll_payments`; amounts are in hundredths. -/
structure PayrollPayment where
  id : Nat
  userId : Nat
  grossAmount : Int
  currency : String
  provider : PayrollProvider := .manual
  recipient : String := ""
  recipientCurrency : String := ""
  deliveryStartedAt : Option Int := none
  status : PayrollStatus := .draft
  paidAt : Option Int := none
  reversedAt : Option Int := none
  nextReconcileAt : Option Int := none
  reconcileUntil : Option Int := none
  reconcileAttempts : Nat := 0
  lastReconcileError : String := ""
  providerEventAt : Option Int := none
  providerStatus : String := ""
  providerFailureCode : String := ""
  providerFailureDescription : String := ""
  externalReference : String := ""
  failureReason : String := ""
  updatedAt : Int
  deriving DecidableEq, Repr

/-- `payroll_destinations`, of which every row is confirmed. -/
structure PayrollDestination where
  userId : Nat
  provider : PayrollProvider
  recipient : String
  currency : String
  deriving DecidableEq, Repr

/-- `audit_events` about a payment. -/
structure AuditEvent where
  action : String
  targetId : Nat
  occurredAt : Int
  details : String
  deriving DecidableEq, Repr

/-- Two rows that `uq_payroll_direct_provider_reference` takes for one. -/
def PayrollPayment.sharesReference (p q : PayrollPayment) : Bool :=
  (p.provider == .paypal || p.provider == .wise) && p.externalReference != "" &&
    q.provider == p.provider && q.externalReference == p.externalReference

theorem PayrollPayment.sharesReference_symm {p q : PayrollPayment}
    (h : p.sharesReference q = true) : q.sharesReference p = true := by
  simp only [sharesReference, Bool.and_eq_true, beq_iff_eq, bne_iff_ne, Bool.or_eq_true] at h ⊢
  obtain ⟨⟨⟨hdirect, hne⟩, hprovider⟩, hreference⟩ := h
  rw [hprovider, hreference]
  exact ⟨⟨⟨hdirect, hne⟩, rfl⟩, rfl⟩

/-- The payroll tables; `emails` holds each user's `email`. -/
structure PayrollStore where
  emails : List (Nat × String) := []
  destinations : List PayrollDestination := []
  payments : List PayrollPayment
  auditEvents : List AuditEvent := []
  primaryKey : UniqueKey PayrollPayment.id payments
  uniqueReference : ∀ p ∈ payments, ∀ q ∈ payments, p.sharesReference q = true → p.id = q.id

/-- What is handed to `record_payroll_delivery`. -/
structure Report where
  status : PayrollStatus
  externalReference : String
  failureReason : String
  deriving DecidableEq, Repr

/-! ## One row -/

namespace PayrollPayment

/-- The row as `create_payroll` inserts it. -/
def undelivered (payment : PayrollPayment) : PayrollPayment where
  id := payment.id
  userId := payment.userId
  grossAmount := payment.grossAmount
  currency := payment.currency
  updatedAt := payment.updatedAt

/-- `{provider}.title()` in the message of a missing destination. -/
def destinationError : PayrollProvider → String
  | .paypal => "Confirm this member's Paypal payout destination before sending"
  | _ => "Confirm this member's Wise payout destination before sending"

/-- The recipient that a claim freezes, with its currency. -/
def claimRecipient (payment : PayrollPayment) (provider : PayrollProvider) (email : String)
    (destination : Option PayrollDestination) : Except Error (String × String) :=
  if payment.recipient ≠ "" then .ok (payment.recipient, payment.recipientCurrency)
  else if provider = .paypal ∨ provider = .wise then
    match destination with
    | none => .error (.valueError (destinationError provider))
    | some d => .ok (d.recipient, d.currency)
  else .ok (email, payment.recipientCurrency)

/-- The `SET` of `claim_payroll_delivery`. -/
def claimed (payment : PayrollPayment) (provider : PayrollProvider) (recipient : String × String)
    (now : Int) : PayrollPayment :=
  { payment with
    status := .processing
    provider := provider
    recipient := recipient.1
    recipientCurrency := recipient.2
    failureReason := ""
    updatedAt := now
    deliveryStartedAt := payment.deliveryStartedAt <|> some now }

/-- `claim_payroll_delivery`, on the row it locks. -/
def claim (payment : PayrollPayment) (provider : PayrollProvider) (email : String)
    (destination : Option PayrollDestination) (now : Int) : Except Error PayrollPayment := do
  raiseIf (¬ (payment.status = .draft ∨ payment.status = .failed))
    "Only draft or failed payroll can be dispatched"
  raiseIf (¬ (payment.provider = .manual ∨ payment.provider = provider))
    "A failed payroll can only be retried with its original provider"
  raiseIf (provider = .paypal ∧ (payment.deliveryStartedAt.any (· < now - days 29)) = true)
    "PayPal's duplicate-protection window expired; reconcile this payment manually instead of retrying"
  let recipient ← payment.claimRecipient provider email destination
  return payment.claimed provider recipient now

/-- The `SET` of `record_payroll_delivery`. -/
def recorded (current : PayrollPayment) (provider : PayrollProvider) (report : Report) (now : Int) :
    PayrollPayment :=
  { current with
    status := report.status
    provider := provider
    externalReference := truncate 255
      (if report.externalReference = "" then current.externalReference else report.externalReference)
    failureReason := truncate 1000 report.failureReason
    paidAt := current.paidAt <|> if report.status = .paid then some now else none
    reversedAt := current.reversedAt <|> if report.status = .reversed then some now else none
    nextReconcileAt :=
      if report.status = .processing ∧ report.externalReference ≠ "" then some (now + minutes 5)
      else if report.status = .paid then some (now + minutes (24 * 60))
      else none
    reconcileUntil :=
      if report.status = .paid then
        match current.paidAt with
        | some paidAt => current.reconcileUntil <|> some (paidAt + days 90)
        | none => some (now + days 90)
      else none
    reconcileAttempts := 0
    lastReconcileError := ""
    updatedAt := now }

/-- `record_payroll_delivery`, on the row it locks. -/
def record (current : PayrollPayment) (provider : PayrollProvider) (report : Report) (now : Int) :
    Except Error PayrollPayment := do
  raiseIf (current.status = .paid ∧
      ¬ (report.status = .processing ∨ report.status = .paid ∨ report.status = .reversed))
    "Paid payroll can only be reconciled as processing, paid, or reversed"
  raiseIf (current.status = .reversed ∧ report.status ≠ .reversed) "Reversed payroll is terminal"
  raiseIf (¬ (current.provider = .manual ∨ current.provider = provider))
    "Payroll provider cannot be changed"
  raiseIf (current.externalReference ≠ "" ∧ report.externalReference ≠ "" ∧
      current.externalReference ≠ report.externalReference)
    "Payroll provider reference cannot be changed"
  return current.recorded provider report now

/-- The `WHERE` of `recover_stale_payroll_claims`. -/
def isStale (payment : PayrollPayment) (provider : PayrollProvider) (staleMinutes now : Int) : Bool :=
  payment.provider == provider && payment.status == .processing &&
    payment.externalReference == "" &&
    payment.updatedAt < now - minutes (max 1 (min staleMinutes 60))

/-- The `SET` of `recover_stale_payroll_claims`. -/
def recovered (now : Int) (payment : PayrollPayment) : PayrollPayment :=
  { payment with
    status := .failed
    failureReason := "payroll_dispatch_interrupted"
    updatedAt := now }

/-- The statuses that an event or a pass reconciles. -/
def reconcilable (payment : PayrollPayment) : Bool :=
  payment.status == .processing || payment.status == .paid || payment.status == .failed

/-- The `WHERE` of `reconcilable_payroll_payments`. -/
def isDue (payment : PayrollPayment) (provider : PayrollProvider) (now : Int) : Bool :=
  payment.provider == provider && payment.reconcilable && payment.externalReference != "" &&
    payment.nextReconcileAt.any (· ≤ now) &&
    (payment.status == .processing || payment.status == .failed || payment.reconcileUntil.any (now < ·))

/-- The `SET` of `queue_wise_payroll_event`. -/
def queueWiseEvent (payment : PayrollPayment) (providerStatus failureCode failureDescription : String)
    (eventAt now : Int) : PayrollPayment :=
  { payment with
    providerEventAt := some eventAt
    providerStatus := providerStatus
    providerFailureCode := failureCode
    providerFailureDescription := failureDescription
    nextReconcileAt := if payment.reconcilable then some now else payment.nextReconcileAt
    reconcileUntil :=
      if payment.reconcilable ∧ payment.status = .paid then
        some (max (payment.reconcileUntil.getD now) (now + days 90))
      else payment.reconcileUntil
    reconcileAttempts := if payment.reconcilable then 0 else payment.reconcileAttempts
    lastReconcileError := if payment.reconcilable then "" else payment.lastReconcileError
    updatedAt := now }

/-- `defer_payroll_reconciliation`, on the row it locks. -/
def deferReconciliation (payment : PayrollPayment) (reason : String) (now : Int) : PayrollPayment :=
  if payment.status = .processing ∨ payment.status = .paid then
    let attempts := min (payment.reconcileAttempts + 1) 20
    let baseMinutes : Nat := if payment.status = .processing then 5 else 60
    let delayMinutes := min (baseMinutes * 2 ^ (attempts - 1)) (24 * 60)
    { payment with
      reconcileAttempts := attempts
      lastReconcileError := truncate 500 reason
      nextReconcileAt := some (now + minutes delayMinutes)
      updatedAt := now }
  else payment

/-- The `SET` of `set_financial_status` on a payroll. -/
def withFinancialStatus (payment : PayrollPayment) (status : PayrollStatus) (now : Int) :
    PayrollPayment :=
  { payment with
    status := status
    paidAt := if status = .paid then some now else payment.paidAt
    updatedAt := now }

/-- `set_financial_status` on a payroll. -/
def setFinancialStatus (payment : PayrollPayment) (status : PayrollStatus) (now : Int) :
    Except Error PayrollPayment := do
  raiseIf (payment.provider ≠ .manual)
    "Provider-managed payroll status can only be updated by reconciliation"
  raiseIf (payment.status = .paid ∧ status ≠ .paid)
    "Paid payroll cannot be moved to an earlier status"
  return payment.withFinancialStatus status now

end PayrollPayment

/-! ## The tables -/

namespace PayrollStore

/-- `get_payroll_payment(payment_id)`. -/
def getPayrollPayment (store : PayrollStore) (paymentId : Nat) : Option PayrollPayment :=
  store.payments.find? (·.id == paymentId)

/-- Another payment has this provider and reference. -/
def referenceTaken (store : PayrollStore) (payment : PayrollPayment) : Bool :=
  store.payments.any fun q => q.id != payment.id && payment.sharesReference q

/-- The table with the row of one identifier replaced. -/
def paymentsWith (store : PayrollStore) (payment : PayrollPayment) : List PayrollPayment :=
  updateWhere (·.id == payment.id) (fun _ => payment) store.payments

theorem mem_paymentsWith {store : PayrollStore} {payment p : PayrollPayment}
    (hp : p ∈ store.paymentsWith payment) : p ∈ store.payments ∧ p.id ≠ payment.id ∨ p = payment := by
  rcases Library.mem_updateWhere_cases hp with ⟨hold, hid⟩ | ⟨_, _, _, rfl⟩
  · exact .inl ⟨hold, by simpa using hid⟩
  · exact .inr rfl

/-- A row whose reference is not taken can be written. -/
theorem uniqueReference_paymentsWith {store : PayrollStore} {payment : PayrollPayment}
    (h : ¬ store.referenceTaken payment = true) :
    ∀ p ∈ store.paymentsWith payment, ∀ q ∈ store.paymentsWith payment,
      p.sharesReference q = true → p.id = q.id := by
  have hfree : ∀ q ∈ store.payments, q.id ≠ payment.id → ¬ payment.sharesReference q = true := by
    intro q hq hid hshares
    apply h
    rw [referenceTaken, List.any_eq_true]
    exact ⟨q, hq, by simp [hid, hshares]⟩
  intro p hp q hq hshares
  rcases mem_paymentsWith hp with ⟨hpold, hpid⟩ | rfl
  · rcases mem_paymentsWith hq with ⟨hqold, _⟩ | rfl
    · exact store.uniqueReference p hpold q hqold hshares
    · exact absurd (PayrollPayment.sharesReference_symm hshares) (hfree p hpold hpid)
  · rcases mem_paymentsWith hq with ⟨hqold, hqid⟩ | rfl
    · exact absurd hshares (hfree q hqold hqid)
    · rfl

/-- `UPDATE payroll_payments SET .. WHERE id=%s`. -/
def update (store : PayrollStore) (payment : PayrollPayment) : Except Error PayrollStore :=
  if h : store.referenceTaken payment = true then .error .uniqueViolation
  else .ok { store with
    payments := store.paymentsWith payment
    primaryKey := store.primaryKey.updateWhere_of_key fun _ _ hid => (beq_iff_eq.mp hid).symm
    uniqueReference := uniqueReference_paymentsWith h }

/-- `INSERT INTO audit_events`. -/
def audit (store : PayrollStore) (events : List AuditEvent) : PayrollStore :=
  { store with auditEvents := store.auditEvents ++ events }

/-- The store before any delivery. -/
def undelivered (store : PayrollStore) : PayrollStore where
  emails := store.emails
  destinations := store.destinations
  payments := store.payments.map PayrollPayment.undelivered
  auditEvents := store.auditEvents
  primaryKey := by
    unfold UniqueKey
    rw [List.map_map]
    exact store.primaryKey
  uniqueReference := by
    intro p hp q _ hshares
    obtain ⟨p, _, rfl⟩ := List.mem_map.mp hp
    exact absurd hshares Bool.false_ne_true

/-- `claim_payroll_delivery(payment_id, provider)`; returns the claimed row. -/
def claimPayrollDelivery (store : PayrollStore) (paymentId : Nat) (provider : PayrollProvider)
    (now : Int) : Except Error (PayrollStore × PayrollPayment) := do
  raiseIf (provider = .manual) "Unsupported payroll provider"
  match store.getPayrollPayment paymentId with
  | none => .error (.valueError "Payroll payment not found")
  | some payment =>
    match store.emails.find? (·.1 == payment.userId) with
    | none => .error (.valueError "Payroll payment not found")
    | some (_, email) => do
      let destination := store.destinations.find? fun d =>
        d.userId == payment.userId && d.provider == provider
      let claimed ← payment.claim provider email destination now
      let store ← store.update claimed
      return (store, claimed)

/-- `record_payroll_delivery(payment_id, status, provider=.., ..)`. -/
def recordPayrollDelivery (store : PayrollStore) (paymentId : Nat) (provider : PayrollProvider)
    (report : Report) (now : Int) : Except Error PayrollStore := do
  raiseIf (report.status = .draft) "Invalid payroll delivery status"
  match store.getPayrollPayment paymentId with
  | none => .error (.valueError "Payroll payment not found")
  | some current => do
    let recorded ← current.record provider report now
    let store ← store.update recorded
    return store.audit
      (if report.status = .reversed ∧ current.status ≠ .reversed then
        [⟨"payroll.provider_reversed", paymentId, now,
          truncate 500 (provider.name ++ ":" ++ report.failureReason)⟩]
      else [])

/-- `recover_stale_payroll_claims(provider, minutes=..)`. -/
def recoverStalePayrollClaims (store : PayrollStore) (provider : PayrollProvider)
    (staleMinutes now : Int) : PayrollStore :=
  if provider = .manual then store
  else
    { store with
      payments := updateWhere (·.isStale provider staleMinutes now) (.recovered now) store.payments
      primaryKey := store.primaryKey.updateWhere fun _ => rfl
      uniqueReference := by
        have hsame : ∀ p ∈ updateWhere (·.isStale provider staleMinutes now) (.recovered now)
            store.payments, ∃ q ∈ store.payments, q.id = p.id ∧ q.provider = p.provider ∧
              q.externalReference = p.externalReference := by
          intro p hp
          rcases Library.mem_updateWhere_cases hp with ⟨hold, _⟩ | ⟨q, hq, _, rfl⟩
          · exact ⟨p, hold, rfl, rfl, rfl⟩
          · exact ⟨q, hq, rfl, rfl, rfl⟩
        intro p hp q hq hshares
        obtain ⟨p', hp', hpid, hpprovider, hpreference⟩ := hsame p hp
        obtain ⟨q', hq', hqid, hqprovider, hqreference⟩ := hsame q hq
        rw [← hpid, ← hqid]
        apply store.uniqueReference p' hp' q' hq'
        rw [PayrollPayment.sharesReference, hpprovider, hpreference, hqprovider, hqreference]
        exact hshares }

/-- What `queue_wise_payroll_event` answers. -/
inductive EventOutcome
  | unknown | stale | queued | recorded
  deriving DecidableEq, Repr

/-- `queue_wise_payroll_event(transfer_id, provider_status, occurred_at, ..)`. -/
def queueWisePayrollEvent (store : PayrollStore) (transferId providerStatus : String)
    (occurredAt : Datetime) (failureCode failureDescription : String) (now : Int) :
    Except Error (PayrollStore × EventOutcome) :=
  match occurredAt.toUtc? with
  | none => .error (.valueError "Wise event time must include a timezone")
  | some eventAt =>
    let safeStatus := truncate 80 (lower (strip (withoutNul providerStatus)))
    let safeCode := truncate 120 (strip (withoutNul failureCode))
    let safeDescription := truncate 500 (collapse (withoutNul failureDescription))
    match store.payments.find? fun p => p.provider == .wise && p.externalReference == transferId with
    | none => .ok (store, .unknown)
    | some current =>
      if current.providerEventAt.any (eventAt ≤ ·) then .ok (store, .stale)
      else do
        let store ← store.update
          (current.queueWiseEvent safeStatus safeCode safeDescription eventAt now)
        return (store.audit [⟨"payroll.wise_event_received", current.id, now,
            truncate 500 (safeStatus ++ ":" ++ safeCode)⟩],
          if current.reconcilable then .queued else .recorded)

/-- `reconcilable_payroll_payments(provider, limit=..)`. -/
def reconcilablePayrollPayments (store : PayrollStore) (provider : PayrollProvider) (limit now : Int) :
    List PayrollPayment :=
  if provider = .paypal ∨ provider = .wise then
    (orderBy (·.nextReconcileAt.getD 0) PayrollPayment.id
      (store.payments.filter (·.isDue provider now))).take (max 1 (min limit 500)).toNat
  else []

/-- `defer_payroll_reconciliation(payment_id, reason)`. -/
def deferPayrollReconciliation (store : PayrollStore) (paymentId : Nat) (reason : String)
    (now : Int) : Except Error PayrollStore :=
  match store.getPayrollPayment paymentId with
  | none => .error (.valueError "Payroll payment not found")
  | some current => store.update (current.deferReconciliation reason now)

/-- `set_financial_status("payroll_payments", item_id, item_status)`. -/
def setFinancialStatus (store : PayrollStore) (itemId : Nat) (status : PayrollStatus) (now : Int) :
    Except Error PayrollStore := do
  raiseIf (status = .reversed) "Invalid financial status"
  match store.getPayrollPayment itemId with
  | none => .error (.valueError "Financial record not found")
  | some payroll => do
    let updated ← payroll.setFinancialStatus status now
    store.update updated

end PayrollStore

end Dayfinch
