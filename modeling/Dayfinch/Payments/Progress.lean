/-
# Dayfinch.Payments.Progress -- what a pass of `reconcile_due` leaves of a due payment

`reconcilable_payroll_payments` answers the payments that are due, the longest due first and a bounded number
of them. `reconcile_due` attempts each: what the provider answers is recorded, and an attempt that raises
defers the payment. A payment that is neither would be answered again by every pass and take the place of
another.

`DeliveryState.Attempted` are the operations that end an attempt, and `reply_scheduled` says that an answer
either ends it or leaves it to a deferral. What ends it sets a later time or none, with one exception:
`defer_payroll_reconciliation` leaves a failed payment as it is, and an event may have made one due.
-/
import Dayfinch.Payments.Events

namespace Dayfinch

open Library (run)
open Library.Text

/-! ## What is scheduled -/

/-- What holds of the schedule of every payment: a provider's payment that no pass reconciles has no time. -/
def IdleUnscheduled (p : PayrollPayment) : Prop :=
  p.provider ≠ .manual → p.status = .draft ∨ p.status = .reversed → p.nextReconcileAt = none

section

variable {s : DeliveryState} {op : DeliveryOp} {p p' : PayrollPayment}

theorem deferReconciliation_of_not (h : ¬ (p.status = .processing ∨ p.status = .paid)) (reason : String)
    (now : Int) : p.deferReconciliation reason now = p := if_neg h

/-- A deferral that is not skipped sets a later time. -/
theorem deferReconciliation_later (h : p.status = .processing ∨ p.status = .paid) (reason : String) (now : Int) :
    ∃ next, (p.deferReconciliation reason now).nextReconcileAt = some next ∧ now < next := by
  unfold PayrollPayment.deferReconciliation
  rw [if_pos h]
  refine ⟨_, rfl, ?_⟩
  have hbase : 0 < (if p.status = .processing then 5 else 60 : Nat) := by
    split <;> omega
  have hdelay := Nat.mul_pos hbase (Nat.two_pow_pos (min (p.reconcileAttempts + 1) 20 - 1))
  simp only [minutes, seconds]
  omega

/-- A report sets a later time or none. -/
theorem recorded_later (p : PayrollPayment) (provider : PayrollProvider) (report : Report) (now : Int) :
    (p.recorded provider report now).nextReconcileAt = none ∨
      ∃ next, (p.recorded provider report now).nextReconcileAt = some next ∧ now < next := by
  simp only [PayrollPayment.recorded]
  split
  · exact .inr ⟨_, rfl, by simp [minutes, seconds]⟩
  · split
    · exact .inr ⟨_, rfl, by simp [minutes, seconds]⟩
    · exact .inl rfl

theorem Change.idleUnscheduled (hp : IdleUnscheduled p) (h : Change s op p p') : IdleUnscheduled p' := by
  intro hmanual hidle
  cases h with
  | same => exact hp hmanual hidle
  | claimed => exact absurd hidle (by simp [PayrollPayment.claimed])
  | recorded _ hdraft =>
    change _ = PayrollStatus.draft ∨ _ = PayrollStatus.reversed at hidle
    have hreversed := hidle.resolve_left hdraft
    simp only [PayrollPayment.recorded] at hreversed ⊢
    simp [hreversed]
  | recovered => exact absurd hidle (by simp [PayrollPayment.recovered])
  | event _ hrow =>
    change p.status = .draft ∨ p.status = .reversed at hidle
    have hnot : p.reconcilable = false := by
      rcases hidle with hidle | hidle <;> simp [PayrollPayment.reconcilable, hidle]
    simp only [PayrollPayment.queueWiseEvent, hnot]
    exact hp hmanual hidle
  | @deferred _ _ reason =>
    by_cases hstatus : p.status = .processing ∨ p.status = .paid
    · have hkept : (p.deferReconciliation reason s.now).status = p.status := by
        unfold PayrollPayment.deferReconciliation
        rw [if_pos hstatus]
      rw [hkept] at hidle
      rcases hstatus with hstatus | hstatus <;> simp [hstatus] at hidle
    · rw [deferReconciliation_of_not hstatus] at hmanual hidle ⊢
      exact hp hmanual hidle
  | settled _ hprovider => exact absurd hprovider hmanual

theorem idleUnscheduled_run (store : PayrollStore) (now : Int) (ops : List DeliveryOp) :
    ∀ p ∈ (run deliveryStep (.undelivered store now) ops).store.payments, IdleUnscheduled p := by
  refine Library.run_invariant (fun s : DeliveryState => ∀ p ∈ s.store.payments, IdleUnscheduled p)
    (fun s op hs p' hp' => ?_) ?_ ops
  · obtain ⟨p, hp, hchange⟩ := Library.exists_of_forall₂_right (deliveryStep_changes s op) hp'
    exact hchange.idleUnscheduled (hs p hp)
  · intro p hp hmanual
    obtain ⟨q, _, rfl⟩ := List.mem_map.mp hp
    exact absurd rfl hmanual

theorem now_le_run (s : DeliveryState) (ops : List DeliveryOp) : s.now ≤ (run deliveryStep s ops).now :=
  Library.run_invariant (s.now ≤ ·.now) (fun s' op h => le_trans h (now_le_step s' op)) le_rfl ops

end

/-! ## Attempts -/

/-- The operations that end an attempt of `reconcile_due` at a payment: what its lookup answered is recorded,
or the payment is deferred. -/
inductive DeliveryState.Attempted (s : DeliveryState) (paymentId : Nat) : DeliveryOp → Prop
  | recorded {i : Nat} {call : Call} {reply : Reply} {report : Report} {next : Option Stage}
      {store' : PayrollStore} (hcall : s.calls[i]? = some call) (hstage : call.stage = .reconcile true)
      (hid : call.payment.id = paymentId) (hanswer : call.answer reply = some (.report report next))
      (hok : s.store.recordPayrollDelivery call.payment.id call.payment.provider report s.now = .ok store') :
      Attempted s paymentId (.reply i reply)
  | deferred {i : Nat} {call : Call} {message : String} (hcall : s.calls[i]? = some call)
      (hstage : call.stage = .deferral message) (hid : call.payment.id = paymentId) :
      Attempted s paymentId (.settle i)

/-- The operation defers a failed payment whose time is not later than an instant. -/
def DeliveryState.DefersFailed (s : DeliveryState) (t : Int) (paymentId : Nat) (op : DeliveryOp) : Prop :=
  (∃ i, op = .settle i) ∧
    ∃ p ∈ s.store.payments, p.id = paymentId ∧ p.status = .failed ∧ p.nextReconcileAt.any (· ≤ t) = true

/-- The payment has no time to be reconciled at, or one that is later than an instant. -/
def PayrollPayment.MovedPast (p : PayrollPayment) (t : Int) : Prop :=
  p.nextReconcileAt = none ∨ ∃ next, p.nextReconcileAt = some next ∧ t < next

section

variable {s : DeliveryState} {op : DeliveryOp} {p : PayrollPayment}

theorem record_refused (provider : PayrollProvider) {report : Report} (now : Int)
    (h : ¬ p.Admits report.status) : ∃ message, p.record provider report now = .error (.valueError message) := by
  unfold PayrollPayment.record
  by_cases hpaid : p.status = .paid ∧
      ¬ (report.status = .processing ∨ report.status = .paid ∨ report.status = .reversed)
  · rw [raiseIf, if_pos hpaid]
    exact ⟨_, rfl⟩
  · have hreversed : p.status = .reversed ∧ report.status ≠ .reversed := by
      by_contra hnot
      exact h ⟨hpaid, hnot⟩
    rw [raiseIf, if_neg hpaid, raiseIf, if_pos hreversed]
    exact ⟨_, rfl⟩

/-- A report under the payment's own provider and reference is recorded, or refused with a `ValueError`. -/
theorem recordPayrollDelivery_refused {store : PayrollStore} (hp : p ∈ store.payments)
    {provider : PayrollProvider} {report : Report} {now : Int} {error : Error}
    (hidentifies : p.Identifies provider report.externalReference)
    (htaken : ¬ store.referenceTaken (p.recorded provider report now) = true)
    (h : store.recordPayrollDelivery p.id provider report now = .error error) :
    ∃ message, error = .valueError message := by
  by_cases hdraft : report.status = .draft
  · rw [PayrollStore.recordPayrollDelivery, raiseIf, if_pos hdraft] at h
    exact ⟨_, (Except.error.inj h).symm⟩
  · by_cases hadmits : p.Admits report.status
    · obtain ⟨store', hok⟩ := PayrollStore.recordPayrollDelivery_succeeds hp hdraft hadmits hidentifies htaken
      rw [h] at hok
      cases hok
    · obtain ⟨message, hrecord⟩ := record_refused provider now hadmits
      have hfind : store.getPayrollPayment p.id = some p := PayrollStore.getPayrollPayment_eq_some.mpr ⟨hp, rfl⟩
      rw [PayrollStore.recordPayrollDelivery, raiseIf, if_neg hdraft, hfind] at h
      simp only [bind, Except.bind, hrecord] at h
      exact ⟨message, (Except.error.inj h).symm⟩

/-- **An attempt goes on**: an answer to a scheduled lookup is recorded, or leaves the call to a deferral. -/
theorem reply_scheduled (h : DeliveryInvariant s) {i : Nat} {call : Call} {reply : Reply} {answer : Answer}
    (hcall : s.calls[i]? = some call) (hstage : call.stage = .reconcile true)
    (hanswer : call.answer reply = some answer) :
    s.Attempted call.payment.id (.reply i reply) ∨
      ∃ message, deliveryStep s (.reply i reply) =
        { s with calls := s.calls.set i { call with stage := .deferral message } } := by
  have hreconcile : call.answer reply = reconcileAnswer call.payment reply := by
    unfold Call.answer
    rw [hstage]
  have hstep : deliveryStep s (.reply i reply) = s.receive i call reply := by
    simp only [deliveryStep, hcall]
  rw [hstep, DeliveryState.receive, hanswer]
  cases answer with
  | raise message =>
    right
    refine ⟨message, ?_⟩
    simp only [hstage, Stage.raised, continueCall, if_true]
  | check =>
    have hdispatch := Call.answer_check hanswer
    rw [hstage] at hdispatch
    cases hdispatch
  | report report next =>
    cases hrecord : s.store.recordPayrollDelivery call.payment.id call.payment.provider report s.now with
    | ok store' => exact .inl (.recorded hcall hstage rfl hanswer hrecord)
    | error error =>
      right
      have hread := h.calls call (List.mem_of_getElem? hcall)
      obtain ⟨q, hq, hfollows⟩ := hread.row
      obtain ⟨hmanual, hne, _, hreference⟩ := reconcileAnswer_report (hreconcile.symm.trans hanswer)
      have hprovider : q.provider = call.payment.provider := hfollows.provider hmanual
      have hsame : q.externalReference = report.externalReference := by
        rw [hreference]
        exact hfollows.reference hne
      rw [← hfollows.id] at hrecord
      obtain ⟨message, rfl⟩ := recordPayrollDelivery_refused hq
        ⟨.inr hprovider, fun hdiffer => hdiffer.2.2 hsame⟩
        (not_referenceTaken_recorded h hq hprovider hsame) hrecord
      rw [hfollows.id] at hrecord
      refine ⟨"payroll_reconciliation_conflict", ?_⟩
      simp only [DeliveryState.report, hrecord, hstage, Stage.refused, Stage.raised, continueCall, if_true]

end

/-! ## Passes -/

section

variable {store : PayrollStore} {now : Int}

/-- A row that is there after a write of one row is that row, or another one. -/
theorem eq_of_mem_paymentsWith {s : PayrollStore} {p q : PayrollPayment} (hq : q ∈ s.paymentsWith p)
    (hid : q.id = p.id) : q = p := by
  rcases PayrollStore.mem_paymentsWith hq with ⟨_, hne⟩ | heq
  · exact absurd hid hne
  · exact heq

/-- **What an attempt leaves.** After `reconcile_due` has attempted a payment that was due when the pass
began, the payment has no time or a later one, unless the attempt was deferred and the payment has failed. -/
theorem reconciliation_progresses_iff (before during : List DeliveryOp) {provider : PayrollProvider}
    {p : PayrollPayment}
    (hp : p ∈ (run deliveryStep (.undelivered store now) before).store.reconcilablePayrollPayments provider 100
      (run deliveryStep (.undelivered store now) before).now)
    {op : DeliveryOp}
    (hop : (run deliveryStep (.undelivered store now) (before ++ during)).Attempted p.id op) :
    (∀ p' ∈ (run deliveryStep (.undelivered store now) (before ++ during ++ [op])).store.payments,
      p'.id = p.id → p'.MovedPast (run deliveryStep (.undelivered store now) before).now) ↔
    ¬ (run deliveryStep (.undelivered store now) (before ++ during)).DefersFailed
      (run deliveryStep (.undelivered store now) before).now p.id op := by
  -- the payment is a provider's, and its row is there when the attempt ends
  have hdue : p ∈ (run deliveryStep (.undelivered store now) before).store.payments ∧ p.provider ≠ .manual := by
    unfold PayrollStore.reconcilablePayrollPayments at hp
    split at hp
    · rename_i hdirect
      obtain ⟨hmem, hdue⟩ := List.mem_filter.mp (Library.mem_orderBy.mp (List.mem_of_mem_take hp))
      refine ⟨hmem, fun hmanual => ?_⟩
      simp only [PayrollPayment.isDue, Bool.and_eq_true, beq_iff_eq] at hdue
      rw [← hdue.1.1.1.1, hmanual] at hdirect
      rcases hdirect with hdirect | hdirect <;> cases hdirect
    · cases hp
  have hinvariant := deliveryInvariant_run (deliveryInvariant_undelivered store now) (before ++ during)
  have hidle := idleUnscheduled_run store now (before ++ during)
  have hrows := follows_run (deliveryInvariant_run (deliveryInvariant_undelivered store now) before) during
  have hclock := now_le_run (run deliveryStep (.undelivered store now) before) during
  rw [Library.run_append _ _ (before ++ during), Library.run_cons, Library.run_nil]
  rw [← Library.run_append] at hrows hclock
  generalize (run deliveryStep (.undelivered store now) before).now = t at hclock ⊢
  generalize run deliveryStep (.undelivered store now) (before ++ during) = s at *
  obtain ⟨q, hq, hfollows⟩ := Library.exists_of_forall₂_left hrows hdue.1
  have hqid : q.id = p.id := hfollows.id
  cases hop with
  | @recorded i call reply report next store' hcall hstage hid hanswer hok =>
      obtain ⟨_, q', hq', hqid', _, _, hpayments⟩ := PayrollStore.recordPayrollDelivery_ok hok
      have hstep : (deliveryStep s (.reply i reply)).store.payments =
          s.store.paymentsWith (q'.recorded call.payment.provider report s.now) := by
        rw [← hpayments]
        simp only [deliveryStep, hcall, DeliveryState.receive, hanswer, DeliveryState.report, hok]
      rw [hstep]
      refine iff_of_true (fun p' hp' hid' => ?_) (fun hdefers => ?_)
      · rw [eq_of_mem_paymentsWith hp' (hid'.trans (hid.symm.trans hqid'.symm))]
        refine (recorded_later q' call.payment.provider report s.now).imp_right ?_
        rintro ⟨next, hnext, hlater⟩
        exact ⟨next, hnext, lt_of_le_of_lt hclock hlater⟩
      · obtain ⟨⟨_, hop⟩, _⟩ := hdefers
        cases hop
  | @deferred i call message hcall hstage hid =>
      have hfind : s.store.getPayrollPayment call.payment.id = some q :=
        PayrollStore.getPayrollPayment_eq_some.mpr ⟨hq, hqid.trans hid.symm⟩
      obtain ⟨store', hupdate, hpayments⟩ : ∃ store',
          s.store.deferPayrollReconciliation call.payment.id message s.now = .ok store' ∧
            store'.payments = s.store.paymentsWith (q.deferReconciliation message s.now) := by
        simp only [PayrollStore.deferPayrollReconciliation, hfind]
        rcases q.deferReconciliation_cases message s.now with hsame | ⟨_, _, _, hset⟩
        · rw [hsame]
          exact PayrollStore.update_succeeds hq q rfl rfl rfl
        · rw [hset]
          exact PayrollStore.update_succeeds hq _ rfl rfl rfl
      have hstep : (deliveryStep s (.settle i)).store.payments =
          s.store.paymentsWith (q.deferReconciliation message s.now) := by
        rw [← hpayments]
        simp only [deliveryStep, hcall, DeliveryState.settle, hstage, hupdate]
      have hdeferId : (q.deferReconciliation message s.now).id = q.id := by
        rcases q.deferReconciliation_cases message s.now with hsame | ⟨_, _, _, hset⟩
        · rw [hsame]
        · rw [hset]
      have hrow : (∀ p' ∈ (deliveryStep s (.settle i)).store.payments, p'.id = p.id → p'.MovedPast t) ↔
          (q.deferReconciliation message s.now).MovedPast t := by
        rw [hstep]
        constructor
        · intro hall
          exact hall _ (PayrollStore.mem_paymentsWith_self hq hdeferId.symm) (hdeferId.trans hqid)
        · intro hmoved p' hp' hid'
          rw [eq_of_mem_paymentsWith hp' (hid'.trans (hqid.symm.trans hdeferId.symm))]
          exact hmoved
      have hfailed : s.DefersFailed t p.id (.settle i) ↔ q.status = .failed ∧ q.nextReconcileAt.any (· ≤ t) = true := by
        constructor
        · rintro ⟨_, q', hq', hqid', hstatus⟩
          rw [s.store.primaryKey.eq hq hq' (hqid.trans hqid'.symm)]
          exact hstatus
        · exact fun hstatus => ⟨⟨i, rfl⟩, q, hq, hqid, hstatus⟩
      rw [hrow, hfailed]
      have hmanual : q.provider ≠ .manual := by
        rw [hfollows.provider hdue.2]
        exact hdue.2
      by_cases hactive : q.status = .processing ∨ q.status = .paid
      · -- a deferral that is not skipped
        obtain ⟨next, hnext, hlater⟩ := deferReconciliation_later hactive message s.now
        refine iff_of_true (.inr ⟨next, hnext, lt_of_le_of_lt hclock hlater⟩) fun hstatus => ?_
        rcases hactive with hactive | hactive <;> simp [hactive] at hstatus
      · rw [deferReconciliation_of_not hactive]
        cases hnext : q.nextReconcileAt with
        | none => simp [PayrollPayment.MovedPast, hnext]
        | some next =>
            -- of the other statuses only a failed payment has a time
            have hstatus : q.status = .failed := by
              have hnot : ¬ (q.status = .draft ∨ q.status = .reversed) := fun h => by
                rw [hidle q hq hmanual h] at hnext
                cases hnext
              cases hq' : q.status <;> simp [hq'] at hactive hnot
              rfl
            simp [PayrollPayment.MovedPast, hnext, hstatus]

end

/-- The payment is funded, five minutes pass, and its lookup fails. -/
def fundedAndDue : List DeliveryOp :=
  transferCreated ++ [.reply 0 (.funding "COMPLETED" ""), .tick 300000000]

def lookupFails : List DeliveryOp :=
  [.reconcile 1 true, .reply 0 (.failed "wise_api_unavailable")]

/-- A processing payment whose lookup fails is deferred. -/
theorem reconciliation_progresses_iff_deferred :
    ∃ p ∈ (run deliveryStep (.undelivered onePayment 0) fundedAndDue).store.reconcilablePayrollPayments .wise 100
        300000000,
      ∀ p' ∈ (run deliveryStep (.undelivered onePayment 0) (fundedAndDue ++ lookupFails ++ [.settle 0])).store.payments,
        p'.id = p.id → p'.MovedPast 300000000 := by
  obtain ⟨p, hp, hid⟩ : ∃ p ∈ (run deliveryStep (.undelivered onePayment 0) fundedAndDue).store.reconcilablePayrollPayments
      .wise 100 (run deliveryStep (.undelivered onePayment 0) fundedAndDue).now, p.id = 1 := by decide +kernel
  obtain ⟨call, hcall, hstage, hcallId⟩ : ∃ call,
      (run deliveryStep (.undelivered onePayment 0) (fundedAndDue ++ lookupFails)).calls[0]? = some call ∧
        call.stage = .deferral "wise_api_unavailable" ∧ call.payment.id = 1 :=
    ⟨_, rfl, by decide +kernel, by decide +kernel⟩
  have hnow : (run deliveryStep (.undelivered onePayment 0) fundedAndDue).now = 300000000 := by decide +kernel
  have hprocessing : ∀ q ∈ (run deliveryStep (.undelivered onePayment 0) (fundedAndDue ++ lookupFails)).store.payments,
      q.status ≠ .failed := by decide +kernel
  have hmoved := (reconciliation_progresses_iff fundedAndDue lookupFails hp
    (.deferred hcall hstage (hcallId.trans hid.symm))).mpr
      fun hdefers => hdefers.2.elim fun q hq => hprocessing q hq.1 hq.2.2.1
  rw [hnow] at hp hmoved
  exact ⟨p, hp, hmoved⟩

/-- The transfer is refunded, which fails the payment, and then an event makes the payment due. -/
def failedAndDue : List DeliveryOp :=
  fundedAndDue ++ lookUpTransfer "funds_refunded" ++ [bouncedBack.delivery "16521632"]

/-- **A failed payment stays at the head of the list** when its lookup fails. -/
theorem reconciliation_stuck :
    ¬ ∀ (store : PayrollStore) (now : Int) (before during : List DeliveryOp) (provider : PayrollProvider),
      ∀ p ∈ (run deliveryStep (.undelivered store now) before).store.reconcilablePayrollPayments provider 100
          (run deliveryStep (.undelivered store now) before).now,
        ∀ op, (run deliveryStep (.undelivered store now) (before ++ during)).Attempted p.id op →
          ∀ p' ∈ (run deliveryStep (.undelivered store now) (before ++ during ++ [op])).store.payments,
            p'.id = p.id → p'.MovedPast (run deliveryStep (.undelivered store now) before).now := by
  intro h
  obtain ⟨p, hp, hid⟩ : ∃ p ∈ (run deliveryStep (.undelivered onePayment 0) failedAndDue).store.reconcilablePayrollPayments
      .wise 100 (run deliveryStep (.undelivered onePayment 0) failedAndDue).now, p.id = 1 := by decide +kernel
  obtain ⟨call, hcall, hstage, hcallId⟩ : ∃ call,
      (run deliveryStep (.undelivered onePayment 0) (failedAndDue ++ lookupFails)).calls[0]? = some call ∧
        call.stage = .deferral "wise_api_unavailable" ∧ call.payment.id = 1 :=
    ⟨_, rfl, by decide +kernel, by decide +kernel⟩
  obtain ⟨p', hp', hid', hnext⟩ : ∃ p' ∈ (run deliveryStep (.undelivered onePayment 0)
      (failedAndDue ++ lookupFails ++ [.settle 0])).store.payments,
      p'.id = 1 ∧ p'.nextReconcileAt = some (run deliveryStep (.undelivered onePayment 0) failedAndDue).now := by
    decide +kernel
  have hmoved := h onePayment 0 failedAndDue lookupFails .wise p hp (.settle 0)
    (.deferred hcall hstage (hcallId.trans hid.symm)) p' hp' (hid'.trans hid.symm)
  rcases hmoved with hnone | ⟨next, hsome, hlater⟩
  · rw [hnext] at hnone
    cases hnone
  · rw [hnext] at hsome
    exact absurd (Option.some.inj hsome) (ne_of_lt hlater)

end Dayfinch
