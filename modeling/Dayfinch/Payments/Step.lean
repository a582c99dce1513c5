/-
# Dayfinch.Payments.Step -- dispatch, reconciliation, callbacks and recovery as one system

The state holds the payroll tables, the server clock and the calls in progress. Every operation is one
transaction or one reply: a call is opened by the transaction that claims or reads the payment, and goes
on when its reply comes in, with any other operations between. A call may also be abandoned at any point,
as when the server stops.

`acknowledged` remembers the payments of which a dispatch has returned without an error. No operation
reads it.
-/
import Dayfinch.Library.Run
import Dayfinch.Payments.Providers

namespace Dayfinch

/-! ## State and operations -/

/-- The state of the delivery service. -/
structure DeliveryState where
  store : PayrollStore
  now : Int
  calls : List Call := []
  acknowledged : List Nat := []

/-- The JSON object of a provider callback, its status in lower case. -/
structure CallbackPayload where
  paymentId : Nat
  status : String
  reference : String
  failureReason : String
  deriving DecidableEq, Repr

/-- The operations of the service and of its surroundings. -/
inductive DeliveryOp
  /-- `send`: the claim, which opens a call. -/
  | send (paymentId : Nat) (provider : PayrollProvider)
  /-- `reconcile`: the read, which opens a call. -/
  | reconcile (paymentId : Nat) (scheduled : Bool)
  /-- The reply to a call. -/
  | reply (call : Nat) (reply : Reply)
  /-- A call writes what it has left to write: a failure or a deferral. -/
  | settle (call : Nat)
  /-- A call is never continued. -/
  | abandon (call : Nat)
  | callback (payload : CallbackPayload)
  | wiseEvent (transferId providerStatus : String) (occurredAt : Datetime)
      (failureCode failureDescription : String)
  | recover (provider : PayrollProvider) (staleMinutes : Int)
  | setFinancialStatus (itemId : Nat) (status : PayrollStatus)
  | tick (elapsed : Nat)
  deriving DecidableEq, Repr

/-! ## Reports -/

/-- `handle_callback`: the report of a payload. -/
def CallbackPayload.report (payload : CallbackPayload) : Option Report :=
  if payload.status = "processing" then
    some ⟨.processing, payload.reference, payload.failureReason⟩
  else if payload.status = "paid" then some ⟨.paid, payload.reference, payload.failureReason⟩
  else if payload.status = "failed" then some ⟨.failed, payload.reference, payload.failureReason⟩
  else none

/-- What a call has left to record, if it failed. -/
def Call.failureReport (call : Call) : Option Report :=
  match call.stage with
  | .failure message => some ⟨.failed, call.payment.externalReference, message⟩
  | _ => none

/-- What an operation hands to `record_payroll_delivery`: payment, provider and report. -/
def DeliveryState.reported (s : DeliveryState) : DeliveryOp → Option (Nat × PayrollProvider × Report)
  | .reply i reply =>
    match s.calls[i]? with
    | none => none
    | some call =>
      match call.answer reply with
      | some (.report report _) => some (call.payment.id, call.payment.provider, report)
      | _ => none
  | .settle i =>
    match s.calls[i]? with
    | none => none
    | some call =>
      call.failureReport.map fun report => (call.payment.id, call.payment.provider, report)
  | .callback payload => payload.report.map fun report => (payload.paymentId, .webhook, report)
  | _ => none

/-! ## Steps -/

/-- The first stage of a dispatch. -/
def dispatchStage (claimed : PayrollPayment) : Stage :=
  match claimed.provider with
  | .paypal => .paypal
  | .wise => if claimed.externalReference = "" then .wiseTransfer else .wiseFunding
  | _ => .webhook

/-- Where a call goes when a `PaymentDeliveryError` is raised in it: a dispatch records the failure, a
scheduled reconciliation defers the payment. -/
def Stage.raised (message : String) : Stage → Option Stage
  | .reconcile scheduled => if scheduled then some (.deferral message) else none
  | .failure _ => none
  | .deferral _ => none
  | _ => some (.failure message)

/-- Where a call goes when its report is refused. A `ValueError` is caught where a payment is
reconciled; elsewhere, and if the reference is another payment's, the exception ends the call. -/
def Stage.refused (stage : Stage) (error : Error) : Option Stage :=
  match stage, error with
  | .wiseCheck, .valueError _ => stage.raised "payroll_reconciliation_conflict"
  | .reconcile _, .valueError _ => stage.raised "payroll_reconciliation_conflict"
  | _, _ => none

/-- A stage of `send`. -/
def Stage.isDispatch : Stage → Bool
  | .reconcile _ | .failure _ | .deferral _ => false
  | _ => true

/-- The call at a place goes on at another stage, or ends. -/
def continueCall (calls : List Call) (i : Nat) (call : Call) : Option Stage → List Call
  | some stage => calls.set i { call with stage := stage }
  | none => calls.eraseIdx i

/-- A call reports. -/
def DeliveryState.report (s : DeliveryState) (i : Nat) (call : Call) (report : Report)
    (next : Option Stage) : DeliveryState :=
  match s.store.recordPayrollDelivery call.payment.id call.payment.provider report s.now with
  | .error error => { s with calls := continueCall s.calls i call (call.stage.refused error) }
  | .ok store =>
    { s with
      store := store
      calls := continueCall s.calls i
        { call with payment := { call.payment with externalReference := report.externalReference } } next
      acknowledged :=
        if call.stage.isDispatch && next.isNone then call.payment.id :: s.acknowledged
        else s.acknowledged }

/-- A call receives a reply. -/
def DeliveryState.receive (s : DeliveryState) (i : Nat) (call : Call) (reply : Reply) :
    DeliveryState :=
  match call.answer reply with
  | none => s
  | some (.raise message) => { s with calls := continueCall s.calls i call (call.stage.raised message) }
  | some .check => { s with calls := continueCall s.calls i call (some .wiseCheck) }
  | some (.report report next) => s.report i call report next

/-- A call writes what it has left to write, and ends. -/
def DeliveryState.settle (s : DeliveryState) (i : Nat) (call : Call) : DeliveryState :=
  match call.stage with
  | .failure message =>
    match s.store.recordPayrollDelivery call.payment.id call.payment.provider
      ⟨.failed, call.payment.externalReference, message⟩ s.now with
    | .error _ => { s with calls := s.calls.eraseIdx i }
    | .ok store => { s with store := store, calls := s.calls.eraseIdx i }
  | .deferral message =>
    match s.store.deferPayrollReconciliation call.payment.id message s.now with
    | .error _ => { s with calls := s.calls.eraseIdx i }
    | .ok store => { s with store := store, calls := s.calls.eraseIdx i }
  | _ => s

/-- The state with another store, if the function that writes it did not fail. -/
def DeliveryState.commit (s : DeliveryState) (result : Except Error PayrollStore) : DeliveryState :=
  match result with
  | .error _ => s
  | .ok store => { s with store := store }

@[simp] theorem DeliveryState.commit_calls (s : DeliveryState) (result : Except Error PayrollStore) :
    (s.commit result).calls = s.calls := by
  cases result <;> rfl

@[simp] theorem DeliveryState.commit_acknowledged (s : DeliveryState)
    (result : Except Error PayrollStore) : (s.commit result).acknowledged = s.acknowledged := by
  cases result <;> rfl

/-- One operation. -/
def deliveryStep (s : DeliveryState) : DeliveryOp → DeliveryState
  | .send paymentId provider =>
    match s.store.claimPayrollDelivery paymentId provider s.now with
    | .error _ => s
    | .ok (store, claimed) =>
      { s with store := store, calls := s.calls ++ [⟨claimed, dispatchStage claimed⟩] }
  | .reconcile paymentId scheduled =>
    match s.store.getPayrollPayment paymentId with
    | none => s
    | some payment => { s with calls := s.calls ++ [⟨payment, .reconcile scheduled⟩] }
  | .reply i reply =>
    match s.calls[i]? with
    | none => s
    | some call => s.receive i call reply
  | .settle i =>
    match s.calls[i]? with
    | none => s
    | some call => s.settle i call
  | .abandon i => { s with calls := s.calls.eraseIdx i }
  | .callback payload =>
    match payload.report with
    | none => s
    | some report =>
      s.commit (s.store.recordPayrollDelivery payload.paymentId .webhook report s.now)
  | .wiseEvent transferId providerStatus occurredAt failureCode failureDescription =>
    s.commit ((s.store.queueWisePayrollEvent transferId providerStatus occurredAt failureCode
      failureDescription s.now).map (·.1))
  | .recover provider staleMinutes =>
    { s with store := s.store.recoverStalePayrollClaims provider staleMinutes s.now }
  | .setFinancialStatus itemId status => s.commit (s.store.setFinancialStatus itemId status s.now)
  | .tick elapsed => { s with now := s.now + elapsed }

/-- The state before any delivery: every payment is as it was created. -/
def DeliveryState.undelivered (store : PayrollStore) (now : Int) : DeliveryState where
  store := store.undelivered
  now := now

end Dayfinch
