/-
# Dayfinch.Payments.Acknowledged -- when recovery leaves acknowledged dispatches alone

`recover_stale_payroll_claims` takes a payment for an interrupted dispatch when it has been processing
for a while without a reference. A dispatch that has returned leaves a reference, or a final status,
except where the provider is the payment webhook: its response may accept the payment without a
reference, and so may a later callback that reports it as processing. `referencesAcknowledged` is the
condition that neither happens; under it, recovery never touches a payment of which a dispatch has
returned (`acknowledged_notInterrupted`).
-/
import Dayfinch.Payments.PaidOnce

namespace Dayfinch

open Library.Text

/-! ## The condition -/

/-- A dispatch of the payment has returned, or returns with this operation. -/
def DeliveryState.acknowledges (s : DeliveryState) (op : DeliveryOp) (paymentId : Nat) : Bool :=
  s.acknowledged.contains paymentId ||
    match op with
    | .reply _ _ => true
    | _ => false

/-- The condition: what acknowledges a payment and leaves it processing carries a reference, unless the
payment has one. -/
def referencesAcknowledged (s : DeliveryState) (op : DeliveryOp) : Bool :=
  match s.reported op with
  | none => true
  | some (id, provider, report) =>
    report.status != .processing || report.externalReference != "" || !s.acknowledges op id ||
      s.store.payments.all fun p =>
        p.id != id || p.externalReference != "" || !decide (p.Admits report.status) ||
          !decide (p.Identifies provider report.externalReference)

/-- What a returned dispatch leaves behind. -/
def Acknowledged (p : PayrollPayment) : Prop :=
  p.provider ≠ .manual ∧ (p.externalReference ≠ "" ∨ p.status = .paid ∨ p.status = .reversed)

section

variable {s : DeliveryState} {op : DeliveryOp} {p : PayrollPayment} {provider : PayrollProvider}
  {report : Report}

/-- Under the condition, what is recorded as processing has a reference. -/
theorem referencesAcknowledged_recorded (h : referencesAcknowledged s op = true)
    (hp : p ∈ s.store.payments) (hreported : s.reported op = some (p.id, provider, report))
    (hacknowledges : s.acknowledges op p.id = true) (hadmits : p.Admits report.status)
    (hidentifies : p.Identifies provider report.externalReference)
    (hprocessing : report.status = .processing) :
    report.externalReference ≠ "" ∨ p.externalReference ≠ "" := by
  unfold referencesAcknowledged at h
  rw [hreported] at h
  simp only [hprocessing, bne_self_eq_false, Bool.false_or, hacknowledges, Bool.not_true,
    Bool.or_false, Bool.or_eq_true, bne_iff_ne, List.all_eq_true] at h
  rcases h with hne | hall
  · exact .inl hne
  · right
    rw [hprocessing] at hadmits
    simpa [hadmits, hidentifies] using hall p hp

theorem recorded_externalReference_ne_empty
    (h : report.externalReference ≠ "" ∨ p.externalReference ≠ "") {now : Int} :
    (p.recorded provider report now).externalReference ≠ "" := by
  show truncate 255 (if report.externalReference = "" then p.externalReference
    else report.externalReference) ≠ ""
  intro hempty
  have hchosen := (truncate_eq_empty (by decide)).mp hempty
  by_cases hreport : report.externalReference = ""
  · rw [if_pos hreport] at hchosen
    rcases h with h | h
    · exact h hreport
    · exact h hchosen
  · rw [if_neg hreport] at hchosen
    exact hreport hchosen

/-- **One step keeps what a returned dispatch has left behind.** -/
theorem Change.acknowledged {p' : PayrollPayment} (hs : DeliveryInvariant s)
    (hp : p ∈ s.store.payments) (hguard : referencesAcknowledged s op = true)
    (hmem : p.id ∈ s.acknowledged) (hleft : Acknowledged p) (h : Change s op p p') :
    Acknowledged p' := by
  obtain ⟨hmanual, hkept⟩ := hleft
  cases h with
  | same => exact ⟨hmanual, hkept⟩
  | claimed hmanual' hstatus hprovider =>
    refine ⟨hmanual', .inl ?_⟩
    -- a failed payment keeps its reference
    rcases hkept with hreference | hpaid | hreversed
    · exact hreference
    · rw [hpaid] at hstatus
      rcases hstatus with h | h <;> cases h
    · rw [hreversed] at hstatus
      rcases hstatus with h | h <;> cases h
  | @recorded provider report hreported hdraft hadmits hidentifies =>
    refine ⟨hs.reported_provider hreported, ?_⟩
    by_cases hreference : p.externalReference = ""
    · have hfinal : p.status = .paid ∨ p.status = .reversed := hkept.resolve_left (not_not.mpr hreference)
      have hacknowledges : s.acknowledges op p.id = true := by
        simp [DeliveryState.acknowledges, hmem]
      show _ ∨ report.status = .paid ∨ report.status = .reversed
      cases hreport : report.status with
      | draft => exact absurd hreport hdraft
      | paid => exact .inr (.inl rfl)
      | reversed => exact .inr (.inr rfl)
      | processing =>
        left
        apply recorded_externalReference_ne_empty
        exact referencesAcknowledged_recorded hguard hp hreported hacknowledges hadmits
          hidentifies hreport
      | failed =>
        exfalso
        rcases hfinal with hpaid | hreversed
        · apply hadmits.1
          rw [hreport]
          exact ⟨hpaid, by decide⟩
        · apply hadmits.2
          rw [hreport]
          exact ⟨hreversed, by decide⟩
    · left
      exact recorded_externalReference_ne_empty (.inr hreference)
  | recovered hop hmanual' hstale =>
    exfalso
    simp only [PayrollPayment.isStale, Bool.and_eq_true, beq_iff_eq] at hstale
    obtain ⟨⟨⟨_, hprocessing⟩, hempty⟩, _⟩ := hstale
    rcases hkept with hreference | hpaid | hreversed
    · exact hreference hempty
    · rw [hprocessing] at hpaid
      cases hpaid
    · rw [hprocessing] at hreversed
      cases hreversed
  | event => exact ⟨hmanual, hkept⟩
  | deferred =>
    rcases p.deferReconciliation_cases _ s.now with hsame | ⟨_, _, _, hset⟩
    · rw [hsame]
      exact ⟨hmanual, hkept⟩
    · rw [hset]
      exact ⟨hmanual, hkept⟩
  | settled hreversed hmanual' hpaid => exact absurd hmanual' hmanual

/-! ## Dispatches that return -/

/-- A report without a reference is the webhook's, and says that the payment is processing or paid. -/
theorem Call.answer_reference {call : Call} {reply : Reply} {next : Option Stage}
    (h : call.answer reply = some (.report report next)) :
    report.externalReference ≠ "" ∨ report.status = .paid ∨ report.status = .processing := by
  unfold Call.answer at h
  cases hstage : call.stage with
  | webhook =>
    rw [hstage] at h
    cases reply with
    | webhook reference id status =>
      simp only [webhookAnswer, Option.some.injEq, Answer.report.injEq] at h
      obtain ⟨rfl, _⟩ := h
      right
      by_cases hpaid : status.getD "processing" = "paid"
      · exact .inl (if_pos hpaid)
      · exact .inr (if_neg hpaid)
    | _ => cases h
  | paypal =>
    rw [hstage] at h
    have h := answerIf_eq_report h
    left
    cases reply with
    | http statusCode selfReferences =>
      simp only at h
      split at h
      · cases h
      next hne =>
        simp only [Option.some.injEq, Answer.report.injEq] at h
        obtain ⟨rfl, _⟩ := h
        exact hne
    | payout batchId transaction batch =>
      simp only at h
      split at h
      next hreference =>
        simp only [Option.some.injEq, Answer.report.injEq] at h
        obtain ⟨rfl, _⟩ := h
        exact ne_empty_of_fullmatch hreference
      · cases h
    | _ => cases h
  | wiseTransfer =>
    rw [hstage] at h
    have h := answerIf_eq_report h
    left
    cases reply with
    | transfer id agrees =>
      simp only at h
      split at h
      next hid =>
        simp only [Option.some.injEq, Answer.report.injEq] at h
        obtain ⟨rfl, _⟩ := h
        exact ne_empty_of_fullmatch (Bool.and_eq_true_iff.mp hid).1
      · cases h
    | _ => cases h
  | wiseFunding =>
    rw [hstage] at h
    obtain ⟨hreference, h⟩ := answerIf_failIf_eq_report (answerIf_eq_report h)
    left
    cases reply with
    | http statusCode selfReferences =>
      simp only at h
      split at h
      · cases h
      · split at h <;> cases h
    | funding status errorCode =>
      simp only at h
      split at h
      · simp only [Option.some.injEq, Answer.report.injEq] at h
        obtain ⟨rfl, _⟩ := h
        exact ne_empty_of_fullmatch (not_not.mp hreference)
      · cases h
    | _ => cases h
  | wiseCheck =>
    rw [hstage] at h
    obtain ⟨hreference, _, _, _, _, rfl⟩ := wiseReconcileAnswer_report h
    exact .inl (ne_empty_of_fullmatch hreference)
  | reconcile scheduled =>
    rw [hstage] at h
    obtain ⟨_, hne, _, hreference⟩ := reconcileAnswer_report h
    left
    rw [hreference]
    exact hne
  | failure message =>
    rw [hstage] at h
    cases h
  | deferral message =>
    rw [hstage] at h
    cases h

/-- A payment is acknowledged by the report of a reply that has been recorded, and by nothing else. -/
theorem acknowledged_step {paymentId : Nat} (h : paymentId ∈ (deliveryStep s op).acknowledged) :
    paymentId ∈ s.acknowledged ∨ ∃ (i : Nat) (reply : Reply) (call : Call) (report : Report)
      (next : Option Stage), op = .reply i reply ∧
      call.answer reply = some (.report report next) ∧
      s.reported op = some (paymentId, call.payment.provider, report) ∧
      s.store.recordPayrollDelivery paymentId call.payment.provider report s.now =
        .ok (deliveryStep s op).store := by
  cases op with
  | send paymentId provider =>
    left
    simp only [deliveryStep] at h
    split at h <;> exact h
  | reconcile paymentId scheduled =>
    left
    simp only [deliveryStep] at h
    split at h <;> exact h
  | reply i reply =>
    simp only [deliveryStep] at h ⊢
    cases hcall : s.calls[i]? with
    | none =>
      rw [hcall] at h
      exact .inl h
    | some call =>
      simp only [hcall, DeliveryState.receive] at h ⊢
      cases hanswer : call.answer reply with
      | none =>
        rw [hanswer] at h
        exact .inl h
      | some answer =>
        cases answer with
        | raise message =>
          rw [hanswer] at h
          exact .inl h
        | check =>
          rw [hanswer] at h
          exact .inl h
        | report report next =>
          simp only [hanswer, DeliveryState.report] at h ⊢
          cases hrecord : s.store.recordPayrollDelivery call.payment.id
              call.payment.provider report s.now with
          | error error =>
            rw [hrecord] at h
            exact .inl h
          | ok store' =>
            simp only [hrecord] at h ⊢
            split at h
            · rcases List.mem_cons.mp h with rfl | hold
              · right
                refine ⟨i, reply, call, report, next, rfl, hanswer, ?_, hrecord⟩
                simp only [DeliveryState.reported, hcall, hanswer]
              · exact .inl hold
            · exact .inl h
  | settle i =>
    left
    simp only [deliveryStep, DeliveryState.settle] at h
    split at h
    · exact h
    · split at h
      · split at h <;> exact h
      · split at h <;> exact h
      · exact h
  | abandon i => exact .inl h
  | callback payload =>
    left
    simp only [deliveryStep] at h
    split at h
    · exact h
    · rw [DeliveryState.commit_acknowledged] at h
      exact h
  | wiseEvent transferId providerStatus occurredAt failureCode failureDescription =>
    rw [deliveryStep, DeliveryState.commit_acknowledged] at h
    exact .inl h
  | recover provider staleMinutes => exact .inl h
  | setFinancialStatus itemId status =>
    rw [deliveryStep, DeliveryState.commit_acknowledged] at h
    exact .inl h
  | tick elapsed => exact .inl h

end

/-! ## Every run -/

/-- What holds in the runs that meet the condition. -/
structure AcknowledgedInvariant (s : DeliveryState) : Prop where
  delivery : DeliveryInvariant s
  left : ∀ p ∈ s.store.payments, p.id ∈ s.acknowledged → Acknowledged p

theorem AcknowledgedInvariant.step {s : DeliveryState} (h : AcknowledgedInvariant s)
    {op : DeliveryOp} (hguard : referencesAcknowledged s op = true) :
    AcknowledgedInvariant (deliveryStep s op) where
  delivery := h.delivery.step op
  left := by
    intro p' hp' hmem
    obtain ⟨p, hp, hchange⟩ := Library.exists_of_forall₂_right (deliveryStep_changes s op) hp'
    have hid : p'.id = p.id := (hchange.follows (h.delivery.rows p hp)).id
    rcases acknowledged_step hmem with hold | ⟨i, reply, call, report, next, hop, hanswer,
      hreported, hrecord⟩
    · rw [hid] at hold
      exact hchange.acknowledged h.delivery hp hguard hold (h.left p hp hold)
    · -- the dispatch returns now, so this is the row it has recorded
      obtain ⟨hdraft, q, hq, hqid, hadmits, hidentifies, hpayments⟩ :=
        PayrollStore.recordPayrollDelivery_ok hrecord
      rw [hpayments] at hp'
      rcases PayrollStore.mem_paymentsWith hp' with ⟨_, hne⟩ | rfl
      · exact absurd hqid.symm hne
      · refine ⟨h.delivery.reported_provider hreported, ?_⟩
        have hacknowledges : s.acknowledges op q.id = true := by
          rw [hop]
          exact Bool.or_true _
        rw [← hqid] at hreported
        rcases Call.answer_reference hanswer with hreference | hpaid | hprocessing
        · exact .inl (recorded_externalReference_ne_empty (.inl hreference))
        · exact .inr (.inl hpaid)
        · left
          apply recorded_externalReference_ne_empty
          exact referencesAcknowledged_recorded hguard hq hreported hacknowledges hadmits
            hidentifies hprocessing

/-- **Recovery leaves acknowledged dispatches alone.** In every run of the delivery service that meets
the condition, no recovery pass changes a payment of which a dispatch has returned. -/
theorem acknowledged_notInterrupted (store : PayrollStore) (now : Int) (ops : List DeliveryOp)
    (hops : Library.Guarded deliveryStep (fun s op => referencesAcknowledged s op = true)
      (.undelivered store now) ops) :
    ∀ p ∈ (Library.run deliveryStep (.undelivered store now) ops).store.payments,
      p.id ∈ (Library.run deliveryStep (.undelivered store now) ops).acknowledged →
      ∀ provider staleMinutes,
        (deliveryStep (Library.run deliveryStep (.undelivered store now) ops)
          (.recover provider staleMinutes)).store.getPayrollPayment p.id = some p := by
  intro p hp hmem provider staleMinutes
  have h : AcknowledgedInvariant (Library.run deliveryStep (.undelivered store now) ops) := by
    apply Library.guarded_invariant AcknowledgedInvariant (fun _ _ h hguard => h.step hguard) _ hops
    refine ⟨deliveryInvariant_undelivered store now, fun p _ hmem => ?_⟩
    cases hmem
  obtain ⟨_, hkept⟩ := h.left p hp hmem
  rw [PayrollStore.getPayrollPayment_eq_some]
  refine ⟨?_, rfl⟩
  simp only [deliveryStep, PayrollStore.recoverStalePayrollClaims]
  by_cases hmanual : provider = .manual
  · rw [if_pos hmanual]
    exact hp
  · rw [if_neg hmanual]
    have hfresh : ¬ p.isStale provider staleMinutes
        (Library.run deliveryStep (.undelivered store now) ops).now = true := by
      intro hstale
      simp only [PayrollPayment.isStale, Bool.and_eq_true, beq_iff_eq] at hstale
      obtain ⟨⟨⟨_, hprocessing⟩, hempty⟩, _⟩ := hstale
      rw [hempty, hprocessing] at hkept
      rcases hkept with h | h | h
      · exact h rfl
      · cases h
      · cases h
    have hrow := Library.mem_updateWhere_of_mem
      (p := (·.isStale provider staleMinutes
        (Library.run deliveryStep (.undelivered store now) ops).now))
      (f := .recovered (Library.run deliveryStep (.undelivered store now) ops).now) hp
    rw [if_neg hfresh] at hrow
    exact hrow

/-- A dispatch through the webhook, and eleven minutes. -/
def webhookDispatch (reference : String) : List DeliveryOp :=
  [.send 1 .webhook, .reply 0 (.webhook reference "" none), .tick 660000000]

/-- The webhook names the batch, and the recovery pass leaves the payment as it is. -/
theorem acknowledged_notInterrupted_reference :
    ∃ p ∈ (Library.run deliveryStep (.undelivered onePayment 0)
        (webhookDispatch "batch-7")).store.payments,
      p.id ∈ (Library.run deliveryStep (.undelivered onePayment 0)
        (webhookDispatch "batch-7")).acknowledged ∧
      (deliveryStep (Library.run deliveryStep (.undelivered onePayment 0)
        (webhookDispatch "batch-7")) (.recover .webhook 10)).store.getPayrollPayment p.id = some p := by
  obtain ⟨p, hp, hmem⟩ : ∃ p ∈ (Library.run deliveryStep (.undelivered onePayment 0)
      (webhookDispatch "batch-7")).store.payments,
      p.id ∈ (Library.run deliveryStep (.undelivered onePayment 0)
        (webhookDispatch "batch-7")).acknowledged := by decide +kernel
  exact ⟨p, hp, hmem, acknowledged_notInterrupted onePayment 0 (webhookDispatch "batch-7")
    (by decide +kernel) p hp hmem .webhook 10⟩

/-- **Without the condition an accepted dispatch is interrupted.** The webhook answers with an empty
object; ten minutes later the recovery pass fails the payment. -/
theorem acknowledged_interrupted :
    ¬ ∀ (store : PayrollStore) (now : Int) (ops : List DeliveryOp),
      ∀ p ∈ (Library.run deliveryStep (.undelivered store now) ops).store.payments,
        p.id ∈ (Library.run deliveryStep (.undelivered store now) ops).acknowledged →
        ∀ provider staleMinutes,
          (deliveryStep (Library.run deliveryStep (.undelivered store now) ops)
            (.recover provider staleMinutes)).store.getPayrollPayment p.id = some p := by
  intro h
  obtain ⟨p, hp, hmem, hfailed⟩ : ∃ p ∈ (Library.run deliveryStep (.undelivered onePayment 0)
      (webhookDispatch "")).store.payments,
      p.id ∈ (Library.run deliveryStep (.undelivered onePayment 0) (webhookDispatch "")).acknowledged ∧
      (deliveryStep (Library.run deliveryStep (.undelivered onePayment 0) (webhookDispatch ""))
        (.recover .webhook 10)).store.getPayrollPayment p.id ≠ some p := by decide +kernel
  exact hfailed (h onePayment 0 _ p hp hmem .webhook 10)

end Dayfinch
