/-
# Dayfinch.Payments.Effect -- what one operation can do to a payment

`Change s op p p'` lists the ways an operation can rewrite a row: the six writers, each with the checks
it has passed. `deliveryStep_changes` is the step lemma: the table after an operation is the table
before it, row by row changed in one of these ways. Everything below and in the modules that follow is
read off `Change`, and no writer is unfolded again.

`Follows` is what a row never gives up: its provider, its reference and its payment date once they are
set, and the reversed status. It is a preorder that every change respects, so a call in progress, which
holds an older version of the row, still knows these about the row as it is now.
-/
import Dayfinch.Payments.Step

namespace Dayfinch

open Library.Text

/-! ## The row functions -/

namespace PayrollPayment

theorem claim_ok {p p' : PayrollPayment} {provider : PayrollProvider} {email : String}
    {destination : Option PayrollDestination} {now : Int}
    (h : p.claim provider email destination now = .ok p') :
    (p.status = .draft ∨ p.status = .failed) ∧ (p.provider = .manual ∨ p.provider = provider) ∧
      ∃ recipient, p' = p.claimed provider recipient now := by
  obtain ⟨_, hstatus, h⟩ := Library.bind_eq_ok.mp h
  obtain ⟨_, hprovider, h⟩ := Library.bind_eq_ok.mp h
  obtain ⟨_, _, h⟩ := Library.bind_eq_ok.mp h
  obtain ⟨recipient, _, h⟩ := Library.bind_eq_ok.mp h
  refine ⟨not_not.mp (raiseIf_eq_ok.mp hstatus), not_not.mp (raiseIf_eq_ok.mp hprovider), ?_⟩
  exact ⟨recipient, (Except.ok.inj h).symm⟩

/-- The identity checks of `record_payroll_delivery`: the provider and the reference do not change. -/
def Identifies (p : PayrollPayment) (provider : PayrollProvider) (reference : String) : Prop :=
  (p.provider = .manual ∨ p.provider = provider) ∧
    ¬ (p.externalReference ≠ "" ∧ reference ≠ "" ∧ p.externalReference ≠ reference)

instance (p : PayrollPayment) (provider : PayrollProvider) (reference : String) :
    Decidable (p.Identifies provider reference) := by
  unfold Identifies
  infer_instance

/-- The status checks of `record_payroll_delivery`. -/
def Admits (p : PayrollPayment) (status : PayrollStatus) : Prop :=
  ¬ (p.status = .paid ∧ ¬ (status = .processing ∨ status = .paid ∨ status = .reversed)) ∧
    ¬ (p.status = .reversed ∧ status ≠ .reversed)

instance (p : PayrollPayment) (status : PayrollStatus) : Decidable (p.Admits status) := by
  unfold Admits
  infer_instance

theorem record_eq_ok {p p' : PayrollPayment} {provider : PayrollProvider} {report : Report}
    {now : Int} :
    p.record provider report now = .ok p' ↔
      p.Admits report.status ∧ p.Identifies provider report.externalReference ∧
        p' = p.recorded provider report now := by
  constructor
  · intro h
    obtain ⟨_, hpaid, h⟩ := Library.bind_eq_ok.mp h
    obtain ⟨_, hreversed, h⟩ := Library.bind_eq_ok.mp h
    obtain ⟨_, hprovider, h⟩ := Library.bind_eq_ok.mp h
    obtain ⟨_, hreference, h⟩ := Library.bind_eq_ok.mp h
    refine ⟨⟨raiseIf_eq_ok.mp hpaid, raiseIf_eq_ok.mp hreversed⟩, ⟨?_, ?_⟩, ?_⟩
    · exact not_not.mp (raiseIf_eq_ok.mp hprovider)
    · exact raiseIf_eq_ok.mp hreference
    · exact (Except.ok.inj h).symm
  · rintro ⟨⟨hpaid, hreversed⟩, ⟨hprovider, hreference⟩, rfl⟩
    apply Library.bind_eq_ok.mpr ⟨(), raiseIf_eq_ok.mpr hpaid, ?_⟩
    apply Library.bind_eq_ok.mpr ⟨(), raiseIf_eq_ok.mpr hreversed, ?_⟩
    apply Library.bind_eq_ok.mpr ⟨(), raiseIf_eq_ok.mpr (not_not.mpr hprovider), ?_⟩
    exact Library.bind_eq_ok.mpr ⟨(), raiseIf_eq_ok.mpr hreference, rfl⟩

theorem setFinancialStatus_ok {p p' : PayrollPayment} {status : PayrollStatus} {now : Int}
    (h : p.setFinancialStatus status now = .ok p') :
    p.provider = .manual ∧ (p.status = .paid → status = .paid) ∧
      p' = p.withFinancialStatus status now := by
  obtain ⟨_, hprovider, h⟩ := Library.bind_eq_ok.mp h
  obtain ⟨_, hpaid, h⟩ := Library.bind_eq_ok.mp h
  refine ⟨not_not.mp (raiseIf_eq_ok.mp hprovider), fun hstatus => ?_, (Except.ok.inj h).symm⟩
  by_contra hne
  exact raiseIf_eq_ok.mp hpaid ⟨hstatus, hne⟩

/-- A deferral writes the retry state only. -/
theorem deferReconciliation_cases (p : PayrollPayment) (reason : String) (now : Int) :
    p.deferReconciliation reason now = p ∨ ∃ attempts error next,
      p.deferReconciliation reason now = { p with
        reconcileAttempts := attempts
        lastReconcileError := error
        nextReconcileAt := next
        updatedAt := now } := by
  unfold deferReconciliation
  by_cases h : p.status = .processing ∨ p.status = .paid
  · rw [if_pos h]
    exact .inr ⟨_, _, _, rfl⟩
  · rw [if_neg h]
    exact .inl rfl

/-- The reference after a report. -/
theorem recorded_externalReference {p : PayrollPayment} {provider : PayrollProvider}
    {report : Report} {now : Int} (hp : truncate 255 p.externalReference = p.externalReference)
    (hidentifies : p.Identifies provider report.externalReference)
    (hne : p.externalReference ≠ "") :
    (p.recorded provider report now).externalReference = p.externalReference := by
  show truncate 255 (if report.externalReference = "" then p.externalReference
    else report.externalReference) = _
  by_cases hreport : report.externalReference = ""
  · rw [if_pos hreport, hp]
  · rw [if_neg hreport]
    have hsame : p.externalReference = report.externalReference := by
      by_contra hdiffer
      exact hidentifies.2 ⟨hne, hreport, hdiffer⟩
    rw [← hsame, hp]

end PayrollPayment

/-! ## The tables -/

namespace PayrollStore

theorem update_eq_ok {store store' : PayrollStore} {payment : PayrollPayment}
    (h : store.update payment = .ok store') : store'.payments = store.paymentsWith payment := by
  unfold update at h
  by_cases htaken : store.referenceTaken payment = true
  · rw [dif_pos htaken] at h
    cases h
  · rw [dif_neg htaken] at h
    cases h
    rfl

theorem mem_paymentsWith_self {store : PayrollStore} {p p' : PayrollPayment}
    (hp : p ∈ store.payments) (hid : p.id = p'.id) : p' ∈ store.paymentsWith p' := by
  have hmem := Library.mem_updateWhere_of_mem (p := (·.id == p'.id)) (f := fun _ => p') hp
  rw [if_pos (beq_iff_eq.mpr hid)] at hmem
  exact hmem

/-- Writing one row relates the table row by row, if the row is related to what it replaces. -/
theorem forall₂_paymentsWith {R : PayrollPayment → PayrollPayment → Prop} {store : PayrollStore}
    {p p' : PayrollPayment} (hp : p ∈ store.payments) (hid : p'.id = p.id) (hrefl : ∀ q, R q q)
    (hR : R p p') : List.Forall₂ R store.payments (store.paymentsWith p') := by
  apply Library.forall₂_updateWhere
  · intro q _ _
    exact hrefl q
  · intro q hq hqid
    have hsame : q = p := store.primaryKey.eq hq hp ((beq_iff_eq.mp hqid).trans hid)
    rw [hsame]
    exact hR

theorem getPayrollPayment_eq_some {store : PayrollStore} {paymentId : Nat} {p : PayrollPayment} :
    store.getPayrollPayment paymentId = some p ↔ p ∈ store.payments ∧ p.id = paymentId := by
  constructor
  · intro h
    exact ⟨List.mem_of_find?_eq_some h, by simpa using List.find?_some h⟩
  · rintro ⟨hp, rfl⟩
    exact store.primaryKey.find?_eq hp

theorem claimPayrollDelivery_ok {store store' : PayrollStore} {paymentId : Nat}
    {provider : PayrollProvider} {now : Int} {p' : PayrollPayment}
    (h : store.claimPayrollDelivery paymentId provider now = .ok (store', p')) :
    provider ≠ .manual ∧ ∃ p ∈ store.payments, ∃ email destination, p.id = paymentId ∧
      p.claim provider email destination now = .ok p' ∧
        store'.payments = store.paymentsWith p' := by
  obtain ⟨_, hmanual, h⟩ := Library.bind_eq_ok.mp h
  cases hfind : store.getPayrollPayment paymentId with
  | none =>
    rw [hfind] at h
    cases h
  | some p =>
    rw [hfind] at h
    cases hemail : store.emails.find? (·.1 == p.userId) with
    | none =>
      simp only [hemail] at h
      cases h
    | some user =>
      simp only [hemail] at h
      obtain ⟨claimed, hclaim, h⟩ := Library.bind_eq_ok.mp h
      obtain ⟨updated, hupdate, h⟩ := Library.bind_eq_ok.mp h
      obtain ⟨rfl, rfl⟩ := Prod.mk.inj (Except.ok.inj h)
      obtain ⟨hp, hid⟩ := getPayrollPayment_eq_some.mp hfind
      exact ⟨raiseIf_eq_ok.mp hmanual, p, hp, _, _, hid, hclaim, update_eq_ok hupdate⟩

theorem recordPayrollDelivery_ok {store store' : PayrollStore} {paymentId : Nat}
    {provider : PayrollProvider} {report : Report} {now : Int}
    (h : store.recordPayrollDelivery paymentId provider report now = .ok store') :
    report.status ≠ .draft ∧ ∃ p ∈ store.payments, p.id = paymentId ∧ p.Admits report.status ∧
      p.Identifies provider report.externalReference ∧
        store'.payments = store.paymentsWith (p.recorded provider report now) := by
  obtain ⟨_, hdraft, h⟩ := Library.bind_eq_ok.mp h
  cases hfind : store.getPayrollPayment paymentId with
  | none =>
    rw [hfind] at h
    cases h
  | some p =>
    rw [hfind] at h
    obtain ⟨recorded, hrecord, h⟩ := Library.bind_eq_ok.mp h
    obtain ⟨updated, hupdate, hok⟩ := Library.bind_eq_ok.mp h
    obtain ⟨hadmits, hidentifies, rfl⟩ := PayrollPayment.record_eq_ok.mp hrecord
    obtain ⟨hp, hid⟩ := getPayrollPayment_eq_some.mp hfind
    refine ⟨raiseIf_eq_ok.mp hdraft, p, hp, hid, hadmits, hidentifies, ?_⟩
    rw [← Except.ok.inj hok]
    show updated.payments = _
    exact update_eq_ok hupdate

/-- A report that no check refuses is recorded. -/
theorem recordPayrollDelivery_succeeds {store : PayrollStore} {p : PayrollPayment}
    (hp : p ∈ store.payments) {provider : PayrollProvider} {report : Report} {now : Int}
    (hdraft : report.status ≠ .draft) (hadmits : p.Admits report.status)
    (hidentifies : p.Identifies provider report.externalReference)
    (htaken : ¬ store.referenceTaken (p.recorded provider report now) = true) :
    ∃ store', store.recordPayrollDelivery p.id provider report now = .ok store' := by
  have hfind : store.getPayrollPayment p.id = some p := getPayrollPayment_eq_some.mpr ⟨hp, rfl⟩
  have hrecord : p.record provider report now = .ok (p.recorded provider report now) :=
    PayrollPayment.record_eq_ok.mpr ⟨hadmits, hidentifies, rfl⟩
  unfold recordPayrollDelivery
  rw [raiseIf, if_neg hdraft, hfind]
  simp only [bind, Except.bind, hrecord]
  unfold update
  rw [dif_neg htaken]
  exact ⟨_, rfl⟩

theorem queueWisePayrollEvent_ok {store store' : PayrollStore} {transferId providerStatus : String}
    {occurredAt : Datetime} {failureCode failureDescription : String} {now : Int}
    {outcome : EventOutcome}
    (h : store.queueWisePayrollEvent transferId providerStatus occurredAt failureCode
      failureDescription now = .ok (store', outcome)) :
    store'.payments = store.payments ∨ ∃ p ∈ store.payments,
      (p.provider = .wise ∧ p.externalReference = transferId) ∧ ∃ status code description eventAt,
        store'.payments = store.paymentsWith (p.queueWiseEvent status code description eventAt now) := by
  unfold queueWisePayrollEvent at h
  cases hat : occurredAt.toUtc? with
  | none =>
    rw [hat] at h
    cases h
  | some eventAt =>
    rw [hat] at h
    simp only at h
    split at h
    · cases h
      exact .inl rfl
    next p hfind =>
      split at h
      · cases h
        exact .inl rfl
      · obtain ⟨updated, hupdate, h⟩ := Library.bind_eq_ok.mp h
        obtain ⟨rfl, _⟩ := Prod.mk.inj (Except.ok.inj h)
        have hrow : p.provider = .wise ∧ p.externalReference = transferId := by
          simpa only [Bool.and_eq_true, beq_iff_eq] using List.find?_some hfind
        have hpayments := update_eq_ok hupdate
        exact .inr ⟨p, List.mem_of_find?_eq_some hfind, hrow, _, _, _, _, hpayments⟩

theorem deferPayrollReconciliation_ok {store store' : PayrollStore} {paymentId : Nat}
    {reason : String} {now : Int}
    (h : store.deferPayrollReconciliation paymentId reason now = .ok store') :
    ∃ p ∈ store.payments, p.id = paymentId ∧
      store'.payments = store.paymentsWith (p.deferReconciliation reason now) := by
  unfold deferPayrollReconciliation at h
  cases hfind : store.getPayrollPayment paymentId with
  | none =>
    rw [hfind] at h
    cases h
  | some p =>
    rw [hfind] at h
    obtain ⟨hp, hid⟩ := getPayrollPayment_eq_some.mp hfind
    exact ⟨p, hp, hid, update_eq_ok h⟩

theorem setFinancialStatus_ok {store store' : PayrollStore} {itemId : Nat} {status : PayrollStatus}
    {now : Int} (h : store.setFinancialStatus itemId status now = .ok store') :
    status ≠ .reversed ∧ ∃ p ∈ store.payments, ∃ p', p.setFinancialStatus status now = .ok p' ∧
      store'.payments = store.paymentsWith p' := by
  obtain ⟨_, hreversed, h⟩ := Library.bind_eq_ok.mp h
  cases hfind : store.getPayrollPayment itemId with
  | none =>
    rw [hfind] at h
    cases h
  | some p =>
    rw [hfind] at h
    obtain ⟨p', hset, h⟩ := Library.bind_eq_ok.mp h
    obtain ⟨hp, _⟩ := getPayrollPayment_eq_some.mp hfind
    exact ⟨raiseIf_eq_ok.mp hreversed, p, hp, p', hset, update_eq_ok h⟩

end PayrollStore

/-! ## Changes -/

/-- What an operation can do to one payment. -/
inductive Change (s : DeliveryState) (op : DeliveryOp) (p : PayrollPayment) : PayrollPayment → Prop
  | same : Change s op p p
  | claimed {provider : PayrollProvider} {recipient : String × String} (hmanual : provider ≠ .manual)
      (hstatus : p.status = .draft ∨ p.status = .failed)
      (hprovider : p.provider = .manual ∨ p.provider = provider) :
      Change s op p (p.claimed provider recipient s.now)
  | recorded {provider : PayrollProvider} {report : Report}
      (hreported : s.reported op = some (p.id, provider, report)) (hdraft : report.status ≠ .draft)
      (hadmits : p.Admits report.status)
      (hidentifies : p.Identifies provider report.externalReference) :
      Change s op p (p.recorded provider report s.now)
  | recovered {provider : PayrollProvider} {staleMinutes : Int}
      (hop : op = .recover provider staleMinutes) (hmanual : provider ≠ .manual)
      (hstale : p.isStale provider staleMinutes s.now = true) : Change s op p (p.recovered s.now)
  | event {transferId providerStatus failureCode failureDescription : String} {occurredAt : Datetime}
      {status code description : String} {eventAt : Int}
      (hop : op = .wiseEvent transferId providerStatus occurredAt failureCode failureDescription)
      (hrow : p.provider = .wise ∧ p.externalReference = transferId) :
      Change s op p (p.queueWiseEvent status code description eventAt s.now)
  | deferred {i : Nat} {call : Call} {reason : String} (hop : op = .settle i)
      (hcall : s.calls[i]? = some call) (hstage : call.stage = .deferral reason)
      (hid : p.id = call.payment.id) : Change s op p (p.deferReconciliation reason s.now)
  | settled {status : PayrollStatus} (hreversed : status ≠ .reversed) (hmanual : p.provider = .manual)
      (hpaid : p.status = .paid → status = .paid) :
      Change s op p (p.withFinancialStatus status s.now)

section

variable {s : DeliveryState} {op : DeliveryOp}

theorem changes_same {payments : List PayrollPayment} :
    List.Forall₂ (Change s op) payments payments :=
  List.forall₂_same.mpr fun _ _ => .same

/-- A successful report rewrites the row it was made for. -/
theorem changes_record {store' : PayrollStore} {paymentId : Nat} {provider : PayrollProvider}
    {report : Report} (hreported : s.reported op = some (paymentId, provider, report))
    (h : s.store.recordPayrollDelivery paymentId provider report s.now = .ok store') :
    List.Forall₂ (Change s op) s.store.payments store'.payments := by
  obtain ⟨hdraft, p, hp, rfl, hadmits, hidentifies, hpayments⟩ :=
    PayrollStore.recordPayrollDelivery_ok h
  rw [hpayments]
  apply PayrollStore.forall₂_paymentsWith hp
  · rfl
  · exact fun q => .same
  · exact .recorded hreported hdraft hadmits hidentifies

theorem changes_report {i : Nat} {call : Call} {report : Report} {next : Option Stage}
    (hreported : s.reported op = some (call.payment.id, call.payment.provider, report)) :
    List.Forall₂ (Change s op) s.store.payments (s.report i call report next).store.payments := by
  unfold DeliveryState.report
  cases hrecord : s.store.recordPayrollDelivery call.payment.id call.payment.provider report s.now with
  | error error => exact changes_same
  | ok store' => exact changes_record hreported hrecord

theorem changes_receive {i : Nat} {call : Call} {reply : Reply} (hcall : s.calls[i]? = some call)
    (hop : op = .reply i reply) :
    List.Forall₂ (Change s op) s.store.payments (s.receive i call reply).store.payments := by
  unfold DeliveryState.receive
  cases hanswer : call.answer reply with
  | none => exact changes_same
  | some answer =>
    cases answer with
    | raise message => exact changes_same
    | check => exact changes_same
    | report report next =>
      apply changes_report
      rw [hop]
      simp only [DeliveryState.reported, hcall, hanswer]

theorem changes_settle {i : Nat} {call : Call} (hcall : s.calls[i]? = some call)
    (hop : op = .settle i) :
    List.Forall₂ (Change s op) s.store.payments (s.settle i call).store.payments := by
  unfold DeliveryState.settle
  cases hstage : call.stage with
  | failure message =>
    simp only
    cases hrecord : s.store.recordPayrollDelivery call.payment.id call.payment.provider
        ⟨.failed, call.payment.externalReference, message⟩ s.now with
    | error error => exact changes_same
    | ok store' =>
      apply changes_record _ hrecord
      rw [hop]
      simp only [DeliveryState.reported, hcall, Call.failureReport, hstage, Option.map_some]
  | deferral message =>
    simp only
    cases hdefer : s.store.deferPayrollReconciliation call.payment.id message s.now with
    | error error => exact changes_same
    | ok store' =>
      obtain ⟨p, hp, hid, hpayments⟩ := PayrollStore.deferPayrollReconciliation_ok hdefer
      show List.Forall₂ (Change s op) s.store.payments store'.payments
      rw [hpayments]
      apply PayrollStore.forall₂_paymentsWith hp
      · rcases p.deferReconciliation_cases message s.now with hsame | ⟨_, _, _, hset⟩
        · rw [hsame]
        · rw [hset]
      · exact fun q => .same
      · exact .deferred hop hcall hstage hid
  | webhook => exact changes_same
  | paypal => exact changes_same
  | wiseTransfer => exact changes_same
  | wiseFunding => exact changes_same
  | wiseCheck => exact changes_same
  | reconcile scheduled => exact changes_same

/-- **The step lemma.** An operation changes every payment in one of the ways of `Change`. -/
theorem deliveryStep_changes (s : DeliveryState) (op : DeliveryOp) :
    List.Forall₂ (Change s op) s.store.payments (deliveryStep s op).store.payments := by
  cases op with
  | send paymentId provider =>
    simp only [deliveryStep]
    cases hclaim : s.store.claimPayrollDelivery paymentId provider s.now with
    | error error => exact changes_same
    | ok result =>
      obtain ⟨store', p'⟩ := result
      obtain ⟨hmanual, p, hp, email, destination, _, hclaimed, hpayments⟩ :=
        PayrollStore.claimPayrollDelivery_ok hclaim
      obtain ⟨hstatus, hprovider, recipient, rfl⟩ := PayrollPayment.claim_ok hclaimed
      show List.Forall₂ _ s.store.payments store'.payments
      rw [hpayments]
      apply PayrollStore.forall₂_paymentsWith hp
      · rfl
      · exact fun q => .same
      · exact .claimed hmanual hstatus hprovider
  | reconcile paymentId scheduled =>
    simp only [deliveryStep]
    cases s.store.getPayrollPayment paymentId <;> exact changes_same
  | reply i reply =>
    simp only [deliveryStep]
    cases hcall : s.calls[i]? with
    | none => exact changes_same
    | some call => exact changes_receive hcall rfl
  | settle i =>
    simp only [deliveryStep]
    cases hcall : s.calls[i]? with
    | none => exact changes_same
    | some call => exact changes_settle hcall rfl
  | abandon i => exact changes_same
  | callback payload =>
    simp only [deliveryStep]
    cases hreport : payload.report with
    | none => exact changes_same
    | some report =>
      simp only [DeliveryState.commit]
      cases hrecord : s.store.recordPayrollDelivery payload.paymentId .webhook report s.now with
      | error error => exact changes_same
      | ok store' =>
        apply changes_record _ hrecord
        simp only [DeliveryState.reported, hreport, Option.map_some]
  | wiseEvent transferId providerStatus occurredAt failureCode failureDescription =>
    simp only [deliveryStep, DeliveryState.commit]
    cases hevent : s.store.queueWisePayrollEvent transferId providerStatus occurredAt failureCode
        failureDescription s.now with
    | error error => exact changes_same
    | ok result =>
      obtain ⟨store', outcome⟩ := result
      show List.Forall₂ _ s.store.payments store'.payments
      rcases PayrollStore.queueWisePayrollEvent_ok hevent with
        hsame | ⟨p, hp, hrow, status, code, description, eventAt, hpayments⟩
      · rw [hsame]
        exact changes_same
      · rw [hpayments]
        apply PayrollStore.forall₂_paymentsWith hp
        · rfl
        · exact fun q => .same
        · exact .event rfl hrow
  | recover provider staleMinutes =>
    simp only [deliveryStep, PayrollStore.recoverStalePayrollClaims]
    by_cases hmanual : provider = .manual
    · rw [if_pos hmanual]
      exact changes_same
    · rw [if_neg hmanual]
      apply Library.forall₂_updateWhere
      · exact fun q _ _ => .same
      · exact fun q _ hstale => .recovered rfl hmanual hstale
  | setFinancialStatus itemId status =>
    simp only [deliveryStep, DeliveryState.commit]
    cases hset : s.store.setFinancialStatus itemId status s.now with
    | error error => exact changes_same
    | ok store' =>
      obtain ⟨hreversed, p, hp, p', hrow, hpayments⟩ := PayrollStore.setFinancialStatus_ok hset
      obtain ⟨hmanual, hpaid, rfl⟩ := PayrollPayment.setFinancialStatus_ok hrow
      show List.Forall₂ _ s.store.payments store'.payments
      rw [hpayments]
      apply PayrollStore.forall₂_paymentsWith hp
      · rfl
      · exact fun q => .same
      · exact .settled hreversed hmanual hpaid
  | tick elapsed => exact changes_same

end

end Dayfinch
