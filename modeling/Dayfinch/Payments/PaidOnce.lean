/-
# Dayfinch.Payments.PaidOnce -- when a paid payment is sent only once

A payment that was paid should never fail afterwards, so that it cannot be claimed again, and a refund
should reverse it for good. The first goes wrong in one place: a provider may report a paid payment as
processing again, and from there a failure is recorded like that of a first dispatch, although `paid_at`
is set. `failsNoResumed` is the condition that no failure meets a payment in that state; under it,
`paidPayroll_sentOnce` holds in every run.
-/
import Dayfinch.Payments.Invariant

namespace Dayfinch

/-! ## The property and the condition -/

/-- The provider says that money it had sent came back, or that it will not send it. -/
def Reply.isRefund : Reply → Bool
  | .payoutState transaction batch =>
    paypalFailures.contains transaction ||
      (transaction != "SUCCESS" && (batch == "DENIED" || batch == "CANCELED"))
  | .transferState _ status =>
    status == "funds_refunded" || status == "charged_back" || status == "cancelled"
  | _ => false

/-- What is asked of a payment that has been paid. -/
structure SentOnce (s : DeliveryState) (p : PayrollPayment) : Prop where
  /-- It has not failed. -/
  notFailed : p.status ≠ .failed
  /-- It cannot be claimed. -/
  notClaimed : ∀ provider now result,
    s.store.claimPayrollDelivery p.id provider now ≠ .ok result
  /-- A reversal is final. -/
  terminal : p.status = .reversed → ∀ ops,
    ∃ p' ∈ (Library.run deliveryStep s ops).store.payments, p'.id = p.id ∧ p'.status = .reversed

/-- A refund that is reported of the payment reverses it. A call that read the payment when it was not
paid is refused, and leaves it paid. -/
def RefundReverses (s : DeliveryState) (p : PayrollPayment) (i : Nat) (reply : Reply) : Prop :=
  ∀ call report next, s.calls[i]? = some call → call.payment.id = p.id →
    call.answer reply = some (.report report next) → reply.isRefund = true →
    ∃ p' ∈ (deliveryStep s (.reply i reply)).store.payments, p'.id = p.id ∧
      (p'.status = .reversed ∨ call.payment.status ≠ .paid ∧ p' = p ∧ p.status = .paid)

/-- The payment was paid and is back in processing. -/
def PayrollPayment.resumed (p : PayrollPayment) : Bool :=
  p.paidAt.isSome && p.status == .processing

/-- The condition: no failure is reported of a payment that was paid and is back in processing, and no
recovery pass takes one for an interrupted dispatch. -/
def failsNoResumed (s : DeliveryState) (op : DeliveryOp) : Bool :=
  (match s.reported op with
    | some (id, provider, report) =>
      report.status != .failed || s.store.payments.all fun p =>
        p.id != id || !decide (p.Identifies provider report.externalReference) || !p.resumed
    | none => true) &&
  (match op with
    | .recover provider staleMinutes =>
      s.store.payments.all fun p => !p.isStale provider staleMinutes s.now || p.paidAt.isNone
    | _ => true)

section

variable {s : DeliveryState} {op : DeliveryOp}

theorem failsNoResumed_report (h : failsNoResumed s op = true) {p : PayrollPayment}
    (hp : p ∈ s.store.payments) {provider : PayrollProvider} {report : Report}
    (hreported : s.reported op = some (p.id, provider, report)) (hfailed : report.status = .failed)
    (hidentifies : p.Identifies provider report.externalReference) (hpaid : p.paidAt.isSome = true) :
    p.status ≠ .processing := by
  intro hprocessing
  unfold failsNoResumed at h
  rw [hreported] at h
  have hall := (Bool.and_eq_true_iff.mp h).1
  simp only [hfailed, bne_self_eq_false, Bool.false_or, List.all_eq_true] at hall
  have hrow := hall p hp
  simp [hidentifies, PayrollPayment.resumed, hpaid, hprocessing] at hrow

theorem failsNoResumed_recover {provider : PayrollProvider} {staleMinutes : Int}
    (h : failsNoResumed s (.recover provider staleMinutes) = true) {p : PayrollPayment}
    (hp : p ∈ s.store.payments) (hstale : p.isStale provider staleMinutes s.now = true) :
    p.paidAt = none := by
  have hall := List.all_eq_true.mp (Bool.and_eq_true_iff.mp h).2 p hp
  simpa [hstale] using hall

/-! ## Paid payments stay paid, resume or are reversed -/

/-- The status of a payment that was paid. -/
def PaidKept (p : PayrollPayment) : Prop :=
  p.paidAt.isSome = true → p.status = .paid ∨ p.status = .processing ∨ p.status = .reversed

/-- A failure is not recorded of a payment that was paid, if the condition holds. -/
theorem Change.not_failed {p : PayrollPayment} (hkept : PaidKept p) (hp : p ∈ s.store.payments)
    (hguard : failsNoResumed s op = true) {provider : PayrollProvider} {report : Report}
    (hreported : s.reported op = some (p.id, provider, report)) (hadmits : p.Admits report.status)
    (hidentifies : p.Identifies provider report.externalReference) (hpaid : p.paidAt.isSome = true) :
    report.status ≠ .failed := by
  intro hfailed
  rcases hkept hpaid with hstatus | hstatus | hstatus
  · apply hadmits.1
    rw [hfailed]
    exact ⟨hstatus, by decide⟩
  · exact failsNoResumed_report hguard hp hreported hfailed hidentifies hpaid hstatus
  · apply hadmits.2
    rw [hfailed]
    exact ⟨hstatus, by decide⟩

/-- One step keeps the status of paid payments. -/
theorem Change.paidKept {p p' : PayrollPayment} (hinv : PaymentInvariant p) (hkept : PaidKept p)
    (hp : p ∈ s.store.payments) (hguard : failsNoResumed s op = true) (h : Change s op p p') :
    PaidKept p' := by
  cases h with
  | same => exact hkept
  | claimed hmanual hstatus hprovider => exact fun _ => .inr (.inl rfl)
  | @recorded provider report hreported hdraft hadmits hidentifies =>
    intro hpaid'
    show report.status = .paid ∨ report.status = .processing ∨ report.status = .reversed
    rcases isSome_orElse.mp hpaid' with hpaid | hnow
    · have hfailed := Change.not_failed hkept hp hguard hreported hadmits hidentifies hpaid
      cases hreport : report.status with
      | draft => exact absurd hreport hdraft
      | processing => exact .inr (.inl rfl)
      | paid => exact .inl rfl
      | failed => exact absurd hreport hfailed
      | reversed => exact .inr (.inr rfl)
    · left
      by_contra hne
      rw [if_neg hne] at hnow
      cases hnow
  | @recovered provider staleMinutes hop hmanual hstale =>
    intro hpaid
    have hsome : p.paidAt.isSome = true := hpaid
    rw [hop] at hguard
    rw [failsNoResumed_recover hguard hp hstale] at hsome
    cases hsome
  | event => exact hkept
  | deferred =>
    rcases p.deferReconciliation_cases _ s.now with hsame | ⟨_, _, _, hset⟩
    · rw [hsame]
      exact hkept
    · rw [hset]
      exact hkept
  | @settled status hreversed hmanual hpaid =>
    intro hsome
    left
    show status = .paid
    by_contra hne
    have hsome' : (if status = .paid then some s.now else p.paidAt).isSome = true := hsome
    rw [if_neg hne] at hsome'
    exact hne (hpaid (hinv.manual hmanual hsome'))

end

/-- What holds in the runs that meet the condition. -/
structure PaidInvariant (s : DeliveryState) : Prop where
  delivery : DeliveryInvariant s
  kept : ∀ p ∈ s.store.payments, PaidKept p

theorem PaidInvariant.step {s : DeliveryState} (h : PaidInvariant s) {op : DeliveryOp}
    (hguard : failsNoResumed s op = true) : PaidInvariant (deliveryStep s op) where
  delivery := h.delivery.step op
  kept := by
    intro p' hp'
    obtain ⟨p, hp, hchange⟩ := Library.exists_of_forall₂_right (deliveryStep_changes s op) hp'
    exact hchange.paidKept (h.delivery.rows p hp) (h.kept p hp) hp hguard

theorem paidInvariant_undelivered (store : PayrollStore) (now : Int) :
    PaidInvariant (.undelivered store now) where
  delivery := deliveryInvariant_undelivered store now
  kept := by
    intro p hp hpaid
    obtain ⟨q, _, rfl⟩ := List.mem_map.mp hp
    cases hpaid

theorem paidInvariant_run {store : PayrollStore} {now : Int} {ops : List DeliveryOp}
    (hops : Library.Guarded deliveryStep (fun s op => failsNoResumed s op = true)
      (.undelivered store now) ops) :
    PaidInvariant (Library.run deliveryStep (.undelivered store now) ops) :=
  Library.guarded_invariant PaidInvariant (fun _ _ h hguard => h.step hguard)
    (paidInvariant_undelivered store now) hops

/-! ## What follows for a paid payment -/

section

variable {s : DeliveryState} {p : PayrollPayment}

theorem PaidInvariant.notClaimed (h : PaidInvariant s) (hp : p ∈ s.store.payments)
    (hpaid : p.paidAt.isSome = true) (provider : PayrollProvider) (now : Int)
    (result : PayrollStore × PayrollPayment) :
    s.store.claimPayrollDelivery p.id provider now ≠ .ok result := by
  intro hclaim
  obtain ⟨store', p'⟩ := result
  obtain ⟨_, q, hq, _, _, hid, hclaimed, _⟩ := PayrollStore.claimPayrollDelivery_ok hclaim
  obtain rfl : q = p := s.store.primaryKey.eq hq hp hid
  obtain ⟨hstatus, _⟩ := PayrollPayment.claim_ok hclaimed
  rcases h.kept q hp hpaid with hpaid | hprocessing | hreversed
  · rw [hpaid] at hstatus
    rcases hstatus with h | h <;> cases h
  · rw [hprocessing] at hstatus
    rcases hstatus with h | h <;> cases h
  · rw [hreversed] at hstatus
    rcases hstatus with h | h <;> cases h

/-- **A reversal is final**, in every run, whether or not its steps meet the condition. -/
theorem reversed_terminal (h : DeliveryInvariant s) (hp : p ∈ s.store.payments)
    (hreversed : p.status = .reversed) (ops : List DeliveryOp) :
    ∃ p' ∈ (Library.run deliveryStep s ops).store.payments,
      p'.id = p.id ∧ p'.status = .reversed := by
  obtain ⟨p', hp', hfollows⟩ := Library.exists_of_forall₂_left (follows_run h ops) hp
  exact ⟨p', hp', hfollows.id, hfollows.reversed hreversed⟩

/-! ## Refunds -/

/-- What a refund is reported as: reversed to a call that read the payment as paid, and else failed. -/
theorem refund_status {call : Call} {reply : Reply} {report : Report} {next : Option Stage}
    (hanswer : call.answer reply = some (.report report next)) (hrefund : reply.isRefund = true) :
    report.status = failedOrReversed call.payment.status ∧
      report.externalReference = call.payment.externalReference ∧
        call.payment.externalReference ≠ "" := by
  have hwise : ∀ status, Reply.isRefund (.transferState "" status) = true →
      (wiseStatus status call.payment.status).1 = failedOrReversed call.payment.status := by
    intro status h
    simp only [Reply.isRefund, Bool.or_eq_true, beq_iff_eq] at h
    rcases h with (rfl | rfl) | rfl <;> rfl
  have hpaypal : ∀ transaction batch, Reply.isRefund (.payoutState transaction batch) = true →
      (paypalStatus transaction batch call.payment.status).1 =
        failedOrReversed call.payment.status := by
    intro transaction batch h
    simp only [Reply.isRefund, Bool.or_eq_true, Bool.and_eq_true, beq_iff_eq, bne_iff_ne,
      List.contains_iff_mem] at h
    unfold paypalStatus
    rcases h with hmem | ⟨hsuccess, hbatch⟩
    · have hsuccess : transaction ≠ "SUCCESS" := by
        rintro rfl
        exact absurd hmem (by decide)
      rw [if_neg hsuccess, if_pos hmem]
    · rw [if_neg hsuccess]
      by_cases hmem : transaction ∈ paypalFailures
      · rw [if_pos hmem]
      · rw [if_neg hmem, if_pos hbatch]
  have htransfer : wiseReconcileAnswer call.payment reply = some (.report report next) →
      report.status = failedOrReversed call.payment.status ∧
        report.externalReference = call.payment.externalReference ∧
          call.payment.externalReference ≠ "" := by
    intro h
    obtain ⟨hreference, _, id, status, rfl, rfl⟩ := wiseReconcileAnswer_report h
    exact ⟨hwise status hrefund, rfl, Library.Text.ne_empty_of_fullmatch hreference⟩
  unfold Call.answer at hanswer
  cases hstage : call.stage with
  | wiseCheck =>
    rw [hstage] at hanswer
    exact htransfer hanswer
  | reconcile scheduled =>
    rw [hstage] at hanswer
    simp only [reconcileAnswer] at hanswer
    split at hanswer
    · exact htransfer hanswer
    · obtain ⟨hreference, _, transaction, batch, rfl, rfl⟩ := paypalReconcileAnswer_report hanswer
      exact ⟨hpaypal transaction batch hrefund, rfl, Library.Text.ne_empty_of_fullmatch hreference⟩
    · cases hanswer
  | webhook =>
    rw [hstage] at hanswer
    cases reply <;> first | cases hrefund | cases hanswer
  | paypal =>
    rw [hstage] at hanswer
    have h := answerIf_eq_report hanswer
    cases reply <;> first | cases hrefund | cases h
  | wiseTransfer =>
    rw [hstage] at hanswer
    have h := answerIf_eq_report hanswer
    cases reply <;> first | cases hrefund | cases h
  | wiseFunding =>
    rw [hstage] at hanswer
    have h := answerIf_eq_report (answerIf_eq_report hanswer)
    cases reply <;> first | cases hrefund | cases h
  | failure message =>
    rw [hstage] at hanswer
    cases hanswer
  | deferral message =>
    rw [hstage] at hanswer
    cases hanswer

/-- A report under the payment's own provider and reference is not taken for another payment's. -/
theorem not_referenceTaken_recorded (h : DeliveryInvariant s) (hp : p ∈ s.store.payments)
    {provider : PayrollProvider} {report : Report} {now : Int} (hprovider : p.provider = provider)
    (hreference : p.externalReference = report.externalReference) :
    ¬ s.store.referenceTaken (p.recorded provider report now) = true := by
  intro htaken
  obtain ⟨q, hq, hboth⟩ := List.any_eq_true.mp htaken
  rw [Bool.and_eq_true, bne_iff_ne] at hboth
  apply hboth.1
  have hsame : p.sharesReference q = (p.recorded provider report now).sharesReference q := by
    have hrecorded : (p.recorded provider report now).externalReference = p.externalReference := by
      show Library.Text.truncate 255 (if report.externalReference = "" then p.externalReference
        else report.externalReference) = _
      rw [← hreference, ite_self, (h.rows p hp).short]
    unfold PayrollPayment.sharesReference
    rw [hrecorded]
    show _ = ((provider == .paypal || provider == .wise) && p.externalReference != "" &&
      q.provider == provider && q.externalReference == p.externalReference)
    rw [hprovider]
  exact (s.store.uniqueReference p hp q hq (hsame.trans hboth.2)).symm

/-- **A refund reverses a paid payment.** -/
theorem PaidInvariant.refund (h : PaidInvariant s) (hp : p ∈ s.store.payments)
    (hpaid : p.paidAt.isSome = true) {i : Nat} {reply : Reply}
    (hguard : failsNoResumed s (.reply i reply) = true) : RefundReverses s p i reply := by
  intro call report next hcall hid hanswer hrefund
  obtain ⟨hstatus, hreference, hne⟩ := refund_status hanswer hrefund
  have hcurrent := h.delivery.calls call (List.mem_of_getElem? hcall)
  have hread : Follows call.payment p := by
    obtain ⟨q, hq, hread⟩ := hcurrent.row
    rw [s.store.primaryKey.eq hp hq (hid.symm.trans hread.id.symm)]
    exact hread
  have hreported : s.reported (.reply i reply) = some (p.id, call.payment.provider, report) := by
    simp only [DeliveryState.reported, hcall, hanswer, hid]
  have hmanual : call.payment.provider ≠ .manual := h.delivery.reported_provider hreported
  have hprovider : p.provider = call.payment.provider := hread.provider hmanual
  have hreference' : p.externalReference = report.externalReference := by
    rw [hreference]
    exact hread.reference hne
  have hidentifies : p.Identifies call.payment.provider report.externalReference :=
    ⟨.inr hprovider, fun hdiffer => hdiffer.2.2 hreference'⟩
  have hdraft : report.status ≠ .draft := by
    rw [hstatus, failedOrReversed]
    split <;> decide
  have hstep : deliveryStep s (.reply i reply) = s.report i call report next := by
    simp only [deliveryStep, hcall, DeliveryState.receive, hanswer]
  rw [hstep]
  unfold DeliveryState.report
  cases hrecord : s.store.recordPayrollDelivery call.payment.id call.payment.provider report s.now with
  | ok store' =>
    obtain ⟨_, q, hq, hqid, hadmits, _, hpayments⟩ :=
      PayrollStore.recordPayrollDelivery_ok hrecord
    obtain rfl : q = p := s.store.primaryKey.eq hq hp (hqid.trans hid)
    refine ⟨q.recorded call.payment.provider report s.now, ?_, rfl, .inl ?_⟩
    · show _ ∈ store'.payments
      rw [hpayments]
      exact PayrollStore.mem_paymentsWith_self hp rfl
    · show report.status = .reversed
      have hfailed := Change.not_failed (h.kept q hp) hp hguard hreported hadmits hidentifies hpaid
      rw [hstatus, failedOrReversed] at hfailed ⊢
      split at hfailed
      next hread => rw [if_pos hread]
      · exact absurd rfl hfailed
  | error error =>
    refine ⟨p, hp, rfl, ?_⟩
    -- the report was refused, so it did not say `reversed`
    have hrefused : ¬ p.Admits report.status := by
      intro hadmits
      obtain ⟨store', hok⟩ := PayrollStore.recordPayrollDelivery_succeeds hp hdraft hadmits
        hidentifies (not_referenceTaken_recorded h.delivery hp hprovider hreference')
      rw [← hid, hrecord] at hok
      cases hok
    by_cases hreversed : p.status = .reversed
    · exact .inl hreversed
    · right
      have hpaidNow : p.status = .paid := by
        by_contra hne
        exact hrefused ⟨fun h => hne h.1, fun h => hreversed h.1⟩
      refine ⟨fun hread => hrefused ?_, rfl, hpaidNow⟩
      rw [hstatus, failedOrReversed, if_pos hread]
      exact ⟨fun h => h.2 (.inr (.inr rfl)), fun h => h.2 rfl⟩

end

/-! ## Every run -/

/-- **A paid payment is sent once.** In every run of the delivery service that meets the condition, a
payment that has been paid has not failed and cannot be claimed, a reversal of it is final, and every
refund that is then reported of it reverses it. -/
theorem paidPayroll_sentOnce (store : PayrollStore) (now : Int) (ops : List DeliveryOp)
    (hops : Library.Guarded deliveryStep (fun s op => failsNoResumed s op = true)
      (.undelivered store now) ops) :
    ∀ p ∈ (Library.run deliveryStep (.undelivered store now) ops).store.payments,
      p.paidAt.isSome = true →
        SentOnce (Library.run deliveryStep (.undelivered store now) ops) p ∧
        ∀ i reply,
          failsNoResumed (Library.run deliveryStep (.undelivered store now) ops) (.reply i reply) =
            true →
          RefundReverses (Library.run deliveryStep (.undelivered store now) ops) p i reply := by
  intro p hp hpaid
  have h := paidInvariant_run hops
  refine ⟨⟨fun hfailed => ?_, ?_, ?_⟩, fun i reply hguard => h.refund hp hpaid hguard⟩
  · rcases h.kept p hp hpaid with hstatus | hstatus | hstatus <;> rw [hstatus] at hfailed <;>
      cases hfailed
  · exact h.notClaimed hp hpaid
  · exact reversed_terminal h.delivery hp

/-- One payment of 100 dollars to a confirmed account. -/
def onePayment : PayrollStore where
  emails := [(1, "member@example.test")]
  destinations := [⟨1, .wise, "8692237", "USD"⟩]
  payments := [{ id := 1, userId := 1, grossAmount := 10000, currency := "USD", updatedAt := 0 }]
  primaryKey := List.nodup_singleton 1
  uniqueReference := by decide

/-- The payment is dispatched, funded and paid. -/
def dispatchAndPay : List DeliveryOp :=
  [.send 1 .wise, .reply 0 (.transfer "16521632" true), .reply 0 (.funding "COMPLETED" ""),
    .reconcile 1 true, .reply 0 (.transferState "16521632" "outgoing_payment_sent")]

/-- The provider is asked again, and answers with a state. -/
def lookUpTransfer (status : String) : List DeliveryOp :=
  [.reconcile 1 true, .reply 0 (.transferState "16521632" status)]

/-- Wise is asked again about the paid payment, and it answers with a refund. -/
theorem paidPayroll_sentOnce_refunded :
    ∃ p ∈ (Library.run deliveryStep (.undelivered onePayment 0)
        (dispatchAndPay ++ [.reconcile 1 true])).store.payments, p.paidAt.isSome = true ∧
      SentOnce (Library.run deliveryStep (.undelivered onePayment 0)
        (dispatchAndPay ++ [.reconcile 1 true])) p ∧
      RefundReverses (Library.run deliveryStep (.undelivered onePayment 0)
        (dispatchAndPay ++ [.reconcile 1 true])) p 0 (.transferState "16521632" "funds_refunded") := by
  have hguard : Library.Guarded deliveryStep (fun s op => failsNoResumed s op = true)
      (.undelivered onePayment 0)
      (dispatchAndPay ++ [.reconcile 1 true]) := by decide +kernel
  obtain ⟨p, hp, hpaid⟩ : ∃ p ∈ (Library.run deliveryStep (.undelivered onePayment 0)
      (dispatchAndPay ++ [.reconcile 1 true])).store.payments, p.paidAt.isSome = true := by
    decide +kernel
  have hsent := paidPayroll_sentOnce onePayment 0 _ hguard p hp hpaid
  have hrefund := hsent.2 0 (.transferState "16521632" "funds_refunded") (by decide +kernel)
  exact ⟨p, hp, hpaid, hsent.1, hrefund⟩

/-- **Without the condition a payment is sent again.** After a bounce the paid payment is processing,
the refund fails it, and a second dispatch of it is accepted. -/
theorem paidPayroll_sentAgain :
    ¬ ∀ (store : PayrollStore) (now : Int) (ops : List DeliveryOp),
      ∀ p ∈ (Library.run deliveryStep (.undelivered store now) ops).store.payments,
        p.paidAt.isSome = true →
          SentOnce (Library.run deliveryStep (.undelivered store now) ops) p := by
  intro h
  obtain ⟨p, hp, hpaid, hfailed⟩ : ∃ p ∈ (Library.run deliveryStep (.undelivered onePayment 0)
      (dispatchAndPay ++ lookUpTransfer "bounced_back" ++ lookUpTransfer "funds_refunded")).store.payments,
      p.paidAt.isSome = true ∧ p.status = .failed := by decide +kernel
  exact (h onePayment 0 _ p hp hpaid).notFailed hfailed

example : ((Library.run deliveryStep (.undelivered onePayment 0)
    (dispatchAndPay ++ lookUpTransfer "bounced_back" ++ lookUpTransfer "funds_refunded" ++ [.send 1 .wise])).store.payments.map
      (·.status)) = [.processing] := by decide +kernel

end Dayfinch
