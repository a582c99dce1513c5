/-
# Dayfinch.Payments.Providers -- what the delivery service makes of a provider's reply

A call of `PayrollDeliveryService` holds the payment it read and waits for a reply. `Call.answer` is
what the service does with the reply: it raises a `PaymentDeliveryError`, records a report (and goes on
with the next request, if there is one), or looks the transfer up. A reply that the call is not waiting
for has no answer.

Texts of a reply are given as `str` of the JSON value, `""` where the code falls back to it, and in the
case the code puts them in: transaction, batch and funding states in upper case, the others in lower case.
-/
import Dayfinch.Payments.Store

namespace Dayfinch

open Library.Text

/-! ## Replies -/

/-- What comes back for a request. -/
inductive Reply
  /-- No usable response: a transport error, an unusable body, a failed token or quote request. -/
  | failed (message : String)
  /-- A response with another status code than the request accepts. Of a PayPal error that says
  `DUPLICATE`, the references at the end of its `self` links to the configured API. -/
  | http (statusCode : Nat) (selfReferences : List String)
  /-- The JSON object of the payment webhook. -/
  | webhook (reference id : String) (status : Option String)
  /-- A created payout: its batch identifier, the first item's state and the batch's. -/
  | payout (batchId transaction batch : String)
  /-- A created transfer, and whether its account and transaction identifier agree with the request. -/
  | transfer (id : String) (agrees : Bool)
  /-- A funded transfer. -/
  | funding (status errorCode : String)
  /-- A payout looked up. -/
  | payoutState (transaction batch : String)
  /-- A transfer looked up. -/
  | transferState (id status : String)
  deriving DecidableEq, Repr

/-! ## Patterns and checks -/

/-- `PAYPAL_REFERENCE`. -/
def paypalReference (s : String) : Bool :=
  fullmatch (fun c => c.isAlphanum || c == '_' || c == '-')
    (fun c => c.isAlphanum || c == '_' || c == '-') 29 s

/-- `WISE_TRANSFER_REFERENCE`. -/
def wiseTransferReference (s : String) : Bool :=
  fullmatch (fun c => c.isDigit && c != '0') Char.isDigit 18 s

/-- `PAYPAL_CURRENCIES`. -/
def paypalCurrencies : List String :=
  ["AUD", "BRL", "CAD", "CHF", "CZK", "DKK", "EUR", "GBP", "HKD", "HUF", "ILS", "JPY", "MXN", "MYR",
    "NOK", "NZD", "PHP", "PLN", "SEK", "SGD", "THB", "TWD", "USD"]

/-- `PAYPAL_ZERO_DECIMAL_CURRENCIES`. -/
def paypalZeroDecimalCurrencies : List String := ["HUF", "JPY", "TWD"]

/-- `if condition: raise PaymentDeliveryError(message)`. -/
def failIf (condition : Prop) [Decidable condition] (message : String) : Except String Unit :=
  if condition then .error message else .ok ()

/-- The checks of `_send_paypal` before its request. -/
def checkPaypal (payment : PayrollPayment) : Except String Unit := do
  failIf (127 < payment.recipient.length ∨ payment.recipient.toList.count '@' ≠ 1 ∨
    payment.recipient.toList.any isSpace) "paypal_invalid_recipient"
  failIf (upper payment.currency ∉ paypalCurrencies) "paypal_unsupported_currency"
  failIf (payment.grossAmount ≤ 0) "paypal_invalid_amount"
  failIf (upper payment.currency ∈ paypalZeroDecimalCurrencies ∧ ¬ 100 ∣ payment.grossAmount)
    "paypal_currency_requires_whole_amount"

/-- The checks of `_send_wise` before its first request. -/
def checkWise (payment : PayrollPayment) : Except String Unit := do
  failIf (¬ wiseTransferReference payment.recipient) "wise_invalid_recipient"
  failIf (upper payment.recipientCurrency ≠ upper payment.currency) "wise_recipient_currency_mismatch"
  failIf (payment.grossAmount ≤ 0) "wise_invalid_amount"

/-- `_duplicate_reference(response)`. -/
def duplicateReference (statusCode : Nat) (selfReferences : List String) : String :=
  if statusCode = 400 then (selfReferences.find? paypalReference).getD "" else ""

/-! ## Status maps -/

/-- What a failure after the payment was read as paid is called. -/
def failedOrReversed (priorStatus : PayrollStatus) : PayrollStatus :=
  if priorStatus = .paid then .reversed else .failed

/-- The item states of a payout that did not stay paid. -/
def paypalFailures : List String := ["FAILED", "RETURNED", "BLOCKED", "REFUNDED", "REVERSED"]

/-- `_paypal_status(payload, prior_status=..)`. -/
def paypalStatus (transaction batch : String) (priorStatus : PayrollStatus) :
    PayrollStatus × String :=
  if transaction = "SUCCESS" then (.paid, "")
  else if transaction ∈ paypalFailures then
    (failedOrReversed priorStatus, "paypal_" ++ lower transaction)
  else if batch = "DENIED" ∨ batch = "CANCELED" then
    (failedOrReversed priorStatus, "paypal_" ++ lower batch)
  else (.processing, "")

/-- `_wise_status(payload, prior_status=..)`. -/
def wiseStatus (providerStatus : String) (priorStatus : PayrollStatus) : PayrollStatus × String :=
  if providerStatus = "outgoing_payment_sent" then (.paid, "")
  else if providerStatus = "funds_refunded" ∨ providerStatus = "charged_back" then
    (failedOrReversed priorStatus, "wise_" ++ providerStatus)
  else if providerStatus = "cancelled" then
    (failedOrReversed priorStatus, "wise_" ++ providerStatus)
  else (.processing, "")

/-! ## Calls -/

/-- Where a call stands. -/
inductive Stage
  /-- `_send_webhook`, its request sent. -/
  | webhook
  /-- `_send_paypal`, its request sent. -/
  | paypal
  /-- `_send_wise`, its transfer requested. -/
  | wiseTransfer
  /-- `_fund_wise`, its request sent. -/
  | wiseFunding
  /-- `_fund_wise` after a conflict: `_reconcile_wise`. -/
  | wiseCheck
  /-- `reconcile`, called by `reconcile_due` if scheduled. -/
  | reconcile (scheduled : Bool)
  /-- `send` about to record the error that was raised. -/
  | failure (message : String)
  /-- `reconcile_due` about to defer the payment. -/
  | deferral (message : String)
  deriving DecidableEq, Repr

/-- A call in progress, with the payment as it read it. -/
structure Call where
  payment : PayrollPayment
  stage : Stage
  deriving DecidableEq, Repr

/-- What the service does with a reply. -/
inductive Answer
  | raise (message : String)
  | report (report : Report) (next : Option Stage)
  | check
  deriving DecidableEq, Repr

/-- A reply to a request whose preconditions are checked first. -/
def answerIf (check : Except String Unit) (answer : Option Answer) : Option Answer :=
  match check with
  | .error message => some (.raise message)
  | .ok () => answer

/-- `_send_webhook` after its request. -/
def webhookAnswer : Reply → Option Answer
  | .failed message => some (.raise message)
  | .http _ _ => some (.raise "payroll_webhook_unavailable")
  | .webhook reference id status =>
    let providerStatus := status.getD "processing"
    some (.report
      ⟨if providerStatus = "paid" then .paid else .processing,
        truncate 255 (if reference = "" then id else reference), ""⟩ none)
  | _ => none

/-- `_send_paypal`. -/
def paypalAnswer (payment : PayrollPayment) (reply : Reply) : Option Answer :=
  answerIf (checkPaypal payment) <|
    match reply with
    | .failed message => some (.raise message)
    | .http statusCode selfReferences =>
      if duplicateReference statusCode selfReferences = "" then
        some (.raise ("paypal_payout_http_" ++ toString statusCode))
      else some (.report ⟨.processing, duplicateReference statusCode selfReferences, ""⟩ none)
    | .payout batchId transaction batch =>
      if paypalReference batchId then
        let (status, reason) := paypalStatus transaction batch .processing
        some (.report ⟨status, batchId, reason⟩ none)
      else some (.raise "paypal_invalid_payout_reference")
    | _ => none

/-- `_send_wise` up to the transfer. -/
def wiseTransferAnswer (payment : PayrollPayment) (reply : Reply) : Option Answer :=
  answerIf (checkWise payment) <|
    match reply with
    | .failed message => some (.raise message)
    | .http statusCode _ => some (.raise ("wise_transfer_http_" ++ toString statusCode))
    | .transfer id agrees =>
      if wiseTransferReference id && agrees then
        some (.report ⟨.processing, id, ""⟩ (some .wiseFunding))
      else some (.raise "wise_invalid_transfer_response")
    | _ => none

/-- `_fund_wise`, from `_send_wise`. -/
def wiseFundingAnswer (payment : PayrollPayment) (reply : Reply) : Option Answer :=
  answerIf (checkWise payment) <|
    answerIf (failIf (¬ wiseTransferReference payment.externalReference)
      "wise_invalid_transfer_reference") <|
    match reply with
    | .failed message => some (.raise message)
    | .http statusCode _ =>
      if statusCode = 409 then some .check
      else if statusCode = 403 then some (.raise "wise_funding_requires_approval")
      else some (.raise ("wise_funding_http_" ++ toString statusCode))
    | .funding status errorCode =>
      if status = "COMPLETED" then
        some (.report ⟨.processing, payment.externalReference, ""⟩ none)
      else
        let safeCode := truncate 80 (replaceOthers
          (fun c => c.isLower || c.isDigit || c == '_' || c == '.' || c == '-')
          (if errorCode = "" then "rejected" else errorCode))
        some (.raise ("wise_funding_" ++ safeCode))
    | _ => none

/-- `_reconcile_wise`. -/
def wiseReconcileAnswer (payment : PayrollPayment) (reply : Reply) : Option Answer :=
  answerIf (failIf (¬ wiseTransferReference payment.externalReference)
      "Wise transfer reference is unavailable") <|
    match reply with
    | .failed message => some (.raise message)
    | .http statusCode _ => some (.raise ("wise_reconcile_http_" ++ toString statusCode))
    | .transferState id providerStatus =>
      if id = payment.externalReference then
        let (status, reason) := wiseStatus providerStatus payment.status
        some (.report ⟨status, payment.externalReference, reason⟩ none)
      else some (.raise "wise_invalid_transfer_response")
    | _ => none

/-- `reconcile` of a PayPal payment. -/
def paypalReconcileAnswer (payment : PayrollPayment) (reply : Reply) : Option Answer :=
  answerIf (failIf (¬ paypalReference payment.externalReference)
      "PayPal payout reference is unavailable") <|
    match reply with
    | .failed message => some (.raise message)
    | .http statusCode _ => some (.raise ("paypal_reconcile_http_" ++ toString statusCode))
    | .payoutState transaction batch =>
      let (status, reason) := paypalStatus transaction batch payment.status
      some (.report ⟨status, payment.externalReference, reason⟩ none)
    | _ => none

/-- `reconcile`. -/
def reconcileAnswer (payment : PayrollPayment) (reply : Reply) : Option Answer :=
  match payment.provider with
  | .wise => wiseReconcileAnswer payment reply
  | .paypal => paypalReconcileAnswer payment reply
  | _ => some (.raise "Only direct-provider payroll is reconciled")

/-- What a call does with a reply. -/
def Call.answer (call : Call) (reply : Reply) : Option Answer :=
  match call.stage with
  | .webhook => webhookAnswer reply
  | .paypal => paypalAnswer call.payment reply
  | .wiseTransfer => wiseTransferAnswer call.payment reply
  | .wiseFunding => wiseFundingAnswer call.payment reply
  | .wiseCheck => wiseReconcileAnswer call.payment reply
  | .reconcile _ => reconcileAnswer call.payment reply
  | .failure _ => none
  | .deferral _ => none

end Dayfinch
