/-
# Dayfinch.Payments.Invariant -- what holds of the payments and calls in every state

`Follows p q` relates a version of a payment to a later one: the provider and the reference are kept
once they are set, a payment date is never lost, and the reversed status is final. Every `Change` of a
row that keeps `PaymentInvariant` is such a step (`Change.follows`), so the relation holds between a row
and any later version of it (`follows_run`), and between what a call has read and the row it will write
(`DeliveryInvariant.calls`).
-/
import Dayfinch.Payments.Effect

namespace Dayfinch

open Library.Text

/-! ## Rows -/

/-- What holds of every payment. -/
structure PaymentInvariant (p : PayrollPayment) : Prop where
  short : truncate 255 p.externalReference = p.externalReference
  paid : p.status = .paid → p.paidAt.isSome = true
  reversed : p.status = .reversed → p.provider ≠ .manual
  manual : p.provider = .manual → p.paidAt.isSome = true → p.status = .paid

/-- `q` is a later version of `p`. -/
structure Follows (p q : PayrollPayment) : Prop where
  id : q.id = p.id
  provider : p.provider ≠ .manual → q.provider = p.provider
  reference : p.externalReference ≠ "" → q.externalReference = p.externalReference
  paidAt : p.paidAt.isSome = true → q.paidAt.isSome = true
  reversed : p.status = .reversed → q.status = .reversed

theorem Follows.refl (p : PayrollPayment) : Follows p p :=
  ⟨rfl, fun _ => rfl, fun _ => rfl, fun h => h, fun h => h⟩

theorem Follows.trans {p q r : PayrollPayment} (h : Follows p q) (h' : Follows q r) :
    Follows p r where
  id := h'.id.trans h.id
  provider := by
    intro hp
    have hq := h.provider hp
    rw [← hq] at hp ⊢
    exact h'.provider hp
  reference := by
    intro hp
    have hq := h.reference hp
    rw [← hq] at hp ⊢
    exact h'.reference hp
  paidAt := fun hp => h'.paidAt (h.paidAt hp)
  reversed := fun hp => h'.reversed (h.reversed hp)

theorem isSome_orElse {a b : Option Int} : (a <|> b).isSome = true ↔ a.isSome = true ∨ b.isSome = true := by
  cases a <;> simp

/-! ## What reports -/

section

variable {call : Call} {reply : Reply} {report : Report} {next : Option Stage}

theorem answerIf_eq_report {check : Except String Unit} {answer : Option Answer}
    (h : answerIf check answer = some (.report report next)) : answer = some (.report report next) := by
  cases check with
  | error message => cases h
  | ok _ => exact h

theorem answerIf_failIf_eq_report {c : Prop} [Decidable c] {message : String}
    {answer : Option Answer} (h : answerIf (failIf c message) answer = some (.report report next)) :
    ¬ c ∧ answer = some (.report report next) := by
  refine ⟨?_, answerIf_eq_report h⟩
  intro hc
  rw [failIf, if_pos hc] at h
  cases h

/-- A stage of a dispatch that was not refused yet. -/
theorem Call.isDispatch_or_reconcile (h : call.answer reply = some (.report report next)) :
    call.stage.isDispatch = true ∨
      (∃ scheduled, call.stage = .reconcile scheduled) ∧
        reconcileAnswer call.payment reply = some (.report report next) := by
  unfold Call.answer at h
  cases hstage : call.stage with
  | reconcile scheduled =>
    rw [hstage] at h
    exact .inr ⟨⟨scheduled, rfl⟩, h⟩
  | failure message =>
    rw [hstage] at h
    cases h
  | deferral message =>
    rw [hstage] at h
    cases h
  | webhook => exact .inl rfl
  | paypal => exact .inl rfl
  | wiseTransfer => exact .inl rfl
  | wiseFunding => exact .inl rfl
  | wiseCheck => exact .inl rfl

theorem wiseReconcileAnswer_ne_check {payment : PayrollPayment} :
    wiseReconcileAnswer payment reply ≠ some .check := by
  intro h
  unfold wiseReconcileAnswer answerIf at h
  split at h
  · cases h
  · cases reply with
    | transferState id status =>
      simp only at h
      split at h <;> cases h
    | _ => cases h

theorem paypalReconcileAnswer_ne_check {payment : PayrollPayment} :
    paypalReconcileAnswer payment reply ≠ some .check := by
  intro h
  unfold paypalReconcileAnswer answerIf at h
  split at h
  · cases h
  · cases reply <;> cases h

/-- Only a funding request looks its transfer up. -/
theorem Call.answer_check (h : call.answer reply = some .check) : call.stage.isDispatch = true := by
  unfold Call.answer at h
  cases hstage : call.stage with
  | reconcile scheduled =>
    rw [hstage] at h
    simp only [reconcileAnswer] at h
    split at h
    · exact absurd h wiseReconcileAnswer_ne_check
    · exact absurd h paypalReconcileAnswer_ne_check
    · cases h
  | failure message =>
    rw [hstage] at h
    cases h
  | deferral message =>
    rw [hstage] at h
    cases h
  | _ => rfl

/-- What a transfer that was looked up reports. -/
theorem wiseReconcileAnswer_report {payment : PayrollPayment}
    (h : wiseReconcileAnswer payment reply = some (.report report next)) :
    wiseTransferReference payment.externalReference = true ∧ next = none ∧
      ∃ id status, reply = .transferState id status ∧
        report = ⟨(wiseStatus status payment.status).1, payment.externalReference,
          (wiseStatus status payment.status).2⟩ := by
  obtain ⟨hreference, h⟩ := answerIf_failIf_eq_report h
  cases reply with
  | transferState id status =>
    simp only at h
    split at h
    · simp only [Option.some.injEq, Answer.report.injEq] at h
      exact ⟨not_not.mp hreference, h.2.symm, id, status, rfl, h.1.symm⟩
    · cases h
  | _ => cases h

/-- What a payout that was looked up reports. -/
theorem paypalReconcileAnswer_report {payment : PayrollPayment}
    (h : paypalReconcileAnswer payment reply = some (.report report next)) :
    paypalReference payment.externalReference = true ∧ next = none ∧
      ∃ transaction batch, reply = .payoutState transaction batch ∧
        report = ⟨(paypalStatus transaction batch payment.status).1, payment.externalReference,
          (paypalStatus transaction batch payment.status).2⟩ := by
  obtain ⟨hreference, h⟩ := answerIf_failIf_eq_report h
  cases reply with
  | payoutState transaction batch =>
    simp only [Option.some.injEq, Answer.report.injEq] at h
    exact ⟨not_not.mp hreference, h.2.symm, transaction, batch, rfl, h.1.symm⟩
  | _ => cases h

/-- A reconciliation reports of a payment of PayPal or Wise, under the reference it has read. -/
theorem reconcileAnswer_report {payment : PayrollPayment}
    (h : reconcileAnswer payment reply = some (.report report next)) :
    payment.provider ≠ .manual ∧ payment.externalReference ≠ "" ∧ next = none ∧
      report.externalReference = payment.externalReference := by
  unfold reconcileAnswer at h
  cases hprovider : payment.provider with
  | wise =>
    rw [hprovider] at h
    obtain ⟨hreference, hnext, _, _, _, rfl⟩ := wiseReconcileAnswer_report h
    exact ⟨by decide, ne_empty_of_fullmatch hreference, hnext, rfl⟩
  | paypal =>
    rw [hprovider] at h
    obtain ⟨hreference, hnext, _, _, _, rfl⟩ := paypalReconcileAnswer_report h
    exact ⟨by decide, ne_empty_of_fullmatch hreference, hnext, rfl⟩
  | manual =>
    rw [hprovider] at h
    cases h
  | webhook =>
    rw [hprovider] at h
    cases h

/-- Only a created transfer goes on after its report, to be funded under the reference it reported. -/
theorem Call.answer_next {stage : Stage} (h : call.answer reply = some (.report report (some stage))) :
    stage = .wiseFunding ∧ wiseTransferReference report.externalReference = true := by
  unfold Call.answer at h
  cases hstage : call.stage with
  | webhook =>
    rw [hstage] at h
    cases reply <;> cases h
  | paypal =>
    rw [hstage] at h
    have h := answerIf_eq_report h
    cases reply with
    | http statusCode selfReferences =>
      simp only at h
      split at h <;> cases h
    | payout batchId transaction batch =>
      simp only at h
      split at h <;> cases h
    | _ => cases h
  | wiseTransfer =>
    rw [hstage] at h
    have h := answerIf_eq_report h
    cases reply with
    | transfer id agrees =>
      simp only at h
      split at h
      next hid =>
        simp only [Option.some.injEq, Answer.report.injEq] at h
        obtain ⟨rfl, rfl⟩ := h
        exact ⟨rfl, (Bool.and_eq_true_iff.mp hid).1⟩
      · cases h
    | _ => cases h
  | wiseFunding =>
    rw [hstage] at h
    have h := answerIf_eq_report (answerIf_eq_report h)
    cases reply with
    | http statusCode selfReferences =>
      simp only at h
      split at h
      · cases h
      · split at h <;> cases h
    | funding status errorCode =>
      simp only at h
      split at h <;> cases h
    | _ => cases h
  | wiseCheck =>
    rw [hstage] at h
    obtain ⟨_, hnext, _⟩ := wiseReconcileAnswer_report h
    cases hnext
  | reconcile scheduled =>
    rw [hstage] at h
    obtain ⟨_, _, hnext, _⟩ := reconcileAnswer_report h
    cases hnext
  | failure message =>
    rw [hstage] at h
    cases h
  | deferral message =>
    rw [hstage] at h
    cases h

end

/-! ## The invariant -/

/-- What holds of every call: it has read a version of a row, and a dispatch has a provider. -/
structure Call.Current (payments : List PayrollPayment) (call : Call) : Prop where
  read : PaymentInvariant call.payment
  dispatch : call.stage.isDispatch = true ∨ call.failureReport.isSome = true →
    call.payment.provider ≠ .manual
  row : ∃ p ∈ payments, Follows call.payment p

/-- What holds in every state. -/
structure DeliveryInvariant (s : DeliveryState) : Prop where
  rows : ∀ p ∈ s.store.payments, PaymentInvariant p
  calls : ∀ call ∈ s.calls, call.Current s.store.payments

section

variable {s : DeliveryState} {op : DeliveryOp}

/-- Whatever is reported is reported by a provider. -/
theorem DeliveryInvariant.reported_provider (h : DeliveryInvariant s) {id : Nat}
    {provider : PayrollProvider} {report : Report}
    (hreported : s.reported op = some (id, provider, report)) : provider ≠ .manual := by
  cases op with
  | reply i reply =>
    simp only [DeliveryState.reported] at hreported
    split at hreported
    · cases hreported
    next call hcall =>
      split at hreported
      next report' next hanswer =>
        simp only [Option.some.injEq, Prod.mk.injEq] at hreported
        obtain ⟨_, rfl, _⟩ := hreported
        rcases Call.isDispatch_or_reconcile hanswer with hdispatch | ⟨_, hreconcile⟩
        · exact (h.calls call (List.mem_of_getElem? hcall)).dispatch (.inl hdispatch)
        · exact (reconcileAnswer_report hreconcile).1
      · cases hreported
  | settle i =>
    simp only [DeliveryState.reported] at hreported
    split at hreported
    · cases hreported
    next call hcall =>
      obtain ⟨report', hfailure, heq⟩ := Option.map_eq_some_iff.mp hreported
      obtain ⟨_, rfl, _⟩ := heq
      apply (h.calls call (List.mem_of_getElem? hcall)).dispatch
      exact .inr (Option.isSome_of_eq_some hfailure)
  | callback payload =>
    obtain ⟨report', _, heq⟩ := Option.map_eq_some_iff.mp hreported
    obtain ⟨_, rfl, _⟩ := heq
    decide
  | _ => cases hreported

/-- A change keeps the invariant of a row. -/
theorem Change.paymentInvariant {p p' : PayrollPayment} (hs : DeliveryInvariant s)
    (hp : PaymentInvariant p) (h : Change s op p p') : PaymentInvariant p' := by
  cases h with
  | same => exact hp
  | claimed hmanual hstatus hprovider =>
    exact ⟨hp.short, nofun, nofun, fun h => absurd h hmanual⟩
  | @recorded provider report hreported hdraft hadmits hidentifies =>
    have hmanual := hs.reported_provider hreported
    refine ⟨truncate_truncate 255 _, fun hpaid => ?_, fun _ => hmanual, fun h => absurd h hmanual⟩
    have hstatus : report.status = .paid := hpaid
    apply isSome_orElse.mpr
    right
    rw [if_pos hstatus]
    rfl
  | recovered hop hmanual hstale =>
    refine ⟨hp.short, nofun, nofun, fun h => ?_⟩
    simp only [PayrollPayment.isStale, Bool.and_eq_true, beq_iff_eq] at hstale
    have hprovider : p.provider = .manual := h
    exact absurd (hstale.1.1.1.symm.trans hprovider) hmanual
  | event => exact ⟨hp.short, hp.paid, hp.reversed, hp.manual⟩
  | deferred =>
    rcases p.deferReconciliation_cases _ s.now with hsame | ⟨_, _, _, hset⟩
    · rw [hsame]
      exact hp
    · rw [hset]
      exact ⟨hp.short, hp.paid, hp.reversed, hp.manual⟩
  | @settled status hreversed hmanual hpaid =>
    refine ⟨hp.short, fun h => ?_, fun h => absurd h hreversed, fun _ hsome => ?_⟩
    · have hstatus : status = .paid := h
      show (if status = .paid then some s.now else p.paidAt).isSome = true
      rw [if_pos hstatus]
      rfl
    · by_contra hne
      have hstatus : status ≠ .paid := hne
      have hsome' : (if status = .paid then some s.now else p.paidAt).isSome = true := hsome
      rw [if_neg hstatus] at hsome'
      exact hstatus (hpaid (hp.manual hmanual hsome'))

/-- **A change is a step forward.** -/
theorem Change.follows {p p' : PayrollPayment} (hp : PaymentInvariant p) (h : Change s op p p') :
    Follows p p' := by
  cases h with
  | same => exact Follows.refl p
  | @claimed provider recipient hmanual hstatus hprovider =>
    refine ⟨rfl, fun h => ?_, fun _ => rfl, fun h => h, fun h => ?_⟩
    · exact (hprovider.resolve_left h).symm
    · rcases hstatus with hdraft | hfailed
      · rw [hdraft] at h
        cases h
      · rw [hfailed] at h
        cases h
  | @recorded provider report hreported hdraft hadmits hidentifies =>
    refine ⟨rfl, fun h => ?_, fun h => ?_, fun h => ?_, fun h => ?_⟩
    · exact (hidentifies.1.resolve_left h).symm
    · exact PayrollPayment.recorded_externalReference hp.short hidentifies h
    · exact isSome_orElse.mpr (.inl h)
    · by_contra hne
      exact hadmits.2 ⟨h, hne⟩
  | recovered hop hmanual hstale =>
    refine ⟨rfl, fun _ => rfl, fun _ => rfl, fun h => h, fun h => ?_⟩
    simp only [PayrollPayment.isStale, Bool.and_eq_true, beq_iff_eq] at hstale
    rw [hstale.1.1.2] at h
    cases h
  | event => exact ⟨rfl, fun _ => rfl, fun _ => rfl, fun h => h, fun h => h⟩
  | deferred =>
    rcases p.deferReconciliation_cases _ s.now with hsame | ⟨_, _, _, hset⟩
    · rw [hsame]
      exact Follows.refl p
    · rw [hset]
      exact ⟨rfl, fun _ => rfl, fun _ => rfl, fun h => h, fun h => h⟩
  | @settled status hreversed hmanual hpaid =>
    refine ⟨rfl, fun _ => rfl, fun _ => rfl, fun h => ?_, fun h => ?_⟩
    · show (if status = .paid then some s.now else p.paidAt).isSome = true
      by_cases hstatus : status = .paid
      · rw [if_pos hstatus]
        rfl
      · rw [if_neg hstatus]
        exact h
    · exact absurd hmanual (hp.reversed h)

/-! ## The calls -/

/-- The row a call has read goes on being there. -/
theorem Call.Current.step {call : Call} {rows rows' : List PayrollPayment} (h : call.Current rows)
    (hfollows : List.Forall₂ Follows rows rows') : call.Current rows' := by
  refine ⟨h.read, h.dispatch, ?_⟩
  obtain ⟨p, hp, hread⟩ := h.row
  obtain ⟨p', hp', hstep⟩ := Library.exists_of_forall₂_left hfollows hp
  exact ⟨p', hp', hread.trans hstep⟩

theorem mem_continueCall {calls : List Call} {i : Nat} {call c : Call} {next : Option Stage}
    (hc : c ∈ continueCall calls i call next) :
    c ∈ calls ∨ ∃ stage, next = some stage ∧ c = { call with stage := stage } := by
  cases next with
  | none => exact .inl (List.mem_of_mem_eraseIdx hc)
  | some stage =>
    rcases List.mem_or_eq_of_mem_set hc with hold | rfl
    · exact .inl hold
    · exact .inr ⟨stage, rfl, rfl⟩

/-- A call in which an error is raised goes on, if at all, to what follows from its stage. -/
theorem Call.Current.raised {call : Call} {rows : List PayrollPayment} (h : call.Current rows)
    {message : String} {stage : Stage} (hraised : call.stage.raised message = some stage) :
    ({ call with stage := stage } : Call).Current rows := by
  refine ⟨h.read, ?_, h.row⟩
  intro _
  show call.payment.provider ≠ .manual
  cases hstage : call.stage with
  | reconcile scheduled =>
    rw [hstage, Stage.raised] at hraised
    split at hraised
    · cases hraised
      simp [Stage.isDispatch, Call.failureReport] at *
    · cases hraised
  | failure message =>
    rw [hstage] at hraised
    cases hraised
  | deferral message =>
    rw [hstage] at hraised
    cases hraised
  | _ =>
    apply h.dispatch
    left
    rw [hstage]
    rfl

theorem Call.Current.refused {call : Call} {rows : List PayrollPayment} (h : call.Current rows)
    {error : Error} {stage : Stage} (hrefused : call.stage.refused error = some stage) :
    ({ call with stage := stage } : Call).Current rows := by
  unfold Stage.refused at hrefused
  split at hrefused
  · exact h.raised hrefused
  · exact h.raised hrefused
  · cases hrefused

/-- The row that a report has written is a later version of what its call has read, also when the call
goes on under the reference it reported. -/
theorem follows_recorded {read p : PayrollPayment} {provider : PayrollProvider} {report : Report}
    {now : Int} (hread : Follows read p) (hadmits : p.Admits report.status)
    (hidentifies : p.Identifies provider report.externalReference)
    (hshort : truncate 255 report.externalReference = report.externalReference) :
    Follows { read with externalReference := report.externalReference }
      (p.recorded provider report now) where
  id := hread.id
  provider := by
    intro hmanual
    have hp := hread.provider hmanual
    rw [← hp] at hmanual
    exact (hidentifies.1.resolve_left hmanual).symm.trans hp
  reference := by
    intro hne
    show truncate 255 (if report.externalReference = "" then p.externalReference
      else report.externalReference) = report.externalReference
    rw [if_neg hne, hshort]
  paidAt := fun h => isSome_orElse.mpr (.inl (hread.paidAt h))
  reversed := by
    intro h
    by_contra hne
    exact hadmits.2 ⟨hread.reversed h, hne⟩

/-- The calls after a report. -/
theorem DeliveryInvariant.report (h : DeliveryInvariant s) {i : Nat} {call : Call} {reply : Reply}
    {report : Report} {next : Option Stage} (hcall : call ∈ s.calls)
    (hanswer : call.answer reply = some (.report report next)) :
    ∀ c ∈ (s.report i call report next).calls,
      c ∈ s.calls ∨ c.Current (s.report i call report next).store.payments := by
  have hcurrent := h.calls call hcall
  unfold DeliveryState.report
  cases hrecord : s.store.recordPayrollDelivery call.payment.id call.payment.provider report s.now with
  | error error =>
    intro c hc
    rcases mem_continueCall hc with hold | ⟨stage, hstage, rfl⟩
    · exact .inl hold
    · exact .inr (hcurrent.refused hstage)
  | ok store' =>
    intro c hc
    rcases mem_continueCall hc with hold | ⟨stage, rfl, rfl⟩
    · exact .inl hold
    · right
      obtain ⟨rfl, hreference⟩ := Call.answer_next hanswer
      have hshort := truncate_of_fullmatch hreference (by decide : 18 < 255)
      have hdispatch : call.payment.provider ≠ .manual := by
        rcases Call.isDispatch_or_reconcile hanswer with hdispatch | ⟨_, hreconcile⟩
        · exact hcurrent.dispatch (.inl hdispatch)
        · exact (reconcileAnswer_report hreconcile).1
      obtain ⟨_, p, hp, hid, hadmits, hidentifies, hpayments⟩ :=
        PayrollStore.recordPayrollDelivery_ok hrecord
      refine ⟨?_, fun _ => hdispatch, ?_⟩
      · exact ⟨hshort, hcurrent.read.paid, hcurrent.read.reversed, hcurrent.read.manual⟩
      · obtain ⟨q, hq, hread⟩ := hcurrent.row
        obtain rfl : q = p := s.store.primaryKey.eq hq hp (hread.id.trans hid.symm)
        refine ⟨q.recorded call.payment.provider report s.now, ?_,
          follows_recorded hread hadmits hidentifies hshort⟩
        show _ ∈ store'.payments
        rw [hpayments]
        exact PayrollStore.mem_paymentsWith_self hp rfl

/-- A call after an operation was there before it, or is current. -/
theorem DeliveryInvariant.newCalls (h : DeliveryInvariant s) (op : DeliveryOp) :
    ∀ c ∈ (deliveryStep s op).calls,
      c ∈ s.calls ∨ c.Current (deliveryStep s op).store.payments := by
  cases op with
  | send paymentId provider =>
    simp only [deliveryStep]
    cases hclaim : s.store.claimPayrollDelivery paymentId provider s.now with
    | error error => exact fun c hc => .inl hc
    | ok result =>
      obtain ⟨store', claimed⟩ := result
      intro c hc
      rcases List.mem_append.mp hc with hold | hnew
      · exact .inl hold
      · right
        rw [List.mem_singleton.mp hnew]
        obtain ⟨hmanual, p, hp, email, destination, _, hclaimed, hpayments⟩ :=
          PayrollStore.claimPayrollDelivery_ok hclaim
        obtain ⟨hstatus, hprovider, recipient, rfl⟩ := PayrollPayment.claim_ok hclaimed
        have hchange : Change s (.tick 0) p (p.claimed provider recipient s.now) :=
          .claimed hmanual hstatus hprovider
        have hrow := hchange.paymentInvariant h (h.rows p hp)
        refine ⟨hrow, fun _ => hmanual, p.claimed provider recipient s.now, ?_, Follows.refl _⟩
        show _ ∈ store'.payments
        rw [hpayments]
        exact PayrollStore.mem_paymentsWith_self hp rfl
  | reconcile paymentId scheduled =>
    simp only [deliveryStep]
    cases hfind : s.store.getPayrollPayment paymentId with
    | none => exact fun c hc => .inl hc
    | some payment =>
      intro c hc
      rcases List.mem_append.mp hc with hold | hnew
      · exact .inl hold
      · right
        rw [List.mem_singleton.mp hnew]
        obtain ⟨hp, _⟩ := PayrollStore.getPayrollPayment_eq_some.mp hfind
        refine ⟨h.rows payment hp, ?_, payment, hp, Follows.refl payment⟩
        rintro (hdispatch | hfailure)
        · cases hdispatch
        · cases hfailure
  | reply i reply =>
    simp only [deliveryStep]
    cases hcall : s.calls[i]? with
    | none => exact fun c hc => .inl hc
    | some call =>
      have hmem := List.mem_of_getElem? hcall
      simp only [DeliveryState.receive]
      cases hanswer : call.answer reply with
      | none => exact fun c hc => .inl hc
      | some answer =>
        cases answer with
        | raise message =>
          intro c hc
          rcases mem_continueCall hc with hold | ⟨stage, hstage, rfl⟩
          · exact .inl hold
          · exact .inr ((h.calls call hmem).raised hstage)
        | check =>
          intro c hc
          have hc : c ∈ continueCall s.calls i call (some .wiseCheck) := hc
          rcases mem_continueCall hc with hold | ⟨stage, hstage, rfl⟩
          · exact .inl hold
          · have hcurrent := h.calls call hmem
            refine .inr ⟨hcurrent.read, fun _ => ?_, hcurrent.row⟩
            exact hcurrent.dispatch (.inl (Call.answer_check hanswer))
        | report report next => exact h.report hmem hanswer
  | settle i =>
    simp only [deliveryStep]
    cases hcall : s.calls[i]? with
    | none => exact fun c hc => .inl hc
    | some call =>
      intro c hc
      left
      simp only [DeliveryState.settle] at hc
      split at hc
      · split at hc <;> exact List.mem_of_mem_eraseIdx hc
      · split at hc <;> exact List.mem_of_mem_eraseIdx hc
      · exact hc
  | abandon i => exact fun c hc => .inl (List.mem_of_mem_eraseIdx hc)
  | callback payload =>
    simp only [deliveryStep]
    intro c hc
    left
    split at hc
    · exact hc
    · rw [DeliveryState.commit_calls] at hc
      exact hc
  | wiseEvent transferId providerStatus occurredAt failureCode failureDescription =>
    intro c hc
    left
    rw [deliveryStep, DeliveryState.commit_calls] at hc
    exact hc
  | recover provider staleMinutes => exact fun c hc => .inl hc
  | setFinancialStatus itemId status =>
    intro c hc
    left
    rw [deliveryStep, DeliveryState.commit_calls] at hc
    exact hc
  | tick elapsed => exact fun c hc => .inl hc

/-- Every payment of the next state is a later version of one of this state. -/
theorem DeliveryInvariant.follows (h : DeliveryInvariant s) (op : DeliveryOp) :
    List.Forall₂ Follows s.store.payments (deliveryStep s op).store.payments := by
  have hchanges := (List.forall₂_and_left _ _).mpr ⟨h.rows, deliveryStep_changes s op⟩
  exact hchanges.imp fun p p' hboth => hboth.2.follows hboth.1

theorem DeliveryInvariant.step (h : DeliveryInvariant s) (op : DeliveryOp) :
    DeliveryInvariant (deliveryStep s op) where
  rows := by
    intro p' hp'
    obtain ⟨p, hp, hchange⟩ := Library.exists_of_forall₂_right (deliveryStep_changes s op) hp'
    exact hchange.paymentInvariant h (h.rows p hp)
  calls := by
    intro c hc
    rcases h.newCalls op c hc with hold | hnew
    · exact (h.calls c hold).step (h.follows op)
    · exact hnew

end

theorem deliveryInvariant_undelivered (store : PayrollStore) (now : Int) :
    DeliveryInvariant (.undelivered store now) where
  rows := by
    intro p hp
    obtain ⟨q, _, rfl⟩ := List.mem_map.mp hp
    refine ⟨truncate_empty 255, fun h => ?_, fun h => ?_, fun _ h => ?_⟩
    · cases h
    · cases h
    · cases h
  calls := by
    intro c hc
    cases hc

theorem deliveryInvariant_run {s : DeliveryState} (h : DeliveryInvariant s) (ops : List DeliveryOp) :
    DeliveryInvariant (Library.run deliveryStep s ops) :=
  Library.run_invariant DeliveryInvariant (fun _ op h => h.step op) h ops

/-- **A run only moves payments forward.** -/
theorem follows_run {s : DeliveryState} (h : DeliveryInvariant s) (ops : List DeliveryOp) :
    List.Forall₂ Follows s.store.payments (Library.run deliveryStep s ops).store.payments := by
  induction ops generalizing s with
  | nil => exact List.forall₂_same.mpr fun p _ => Follows.refl p
  | cons op ops ih =>
    exact Library.forall₂_trans (fun _ _ _ hpq hqr => hpq.trans hqr) (h.follows op) (ih (h.step op))

end Dayfinch
