/-
# Dayfinch.Payments.Events -- what a payment holds of the events of its transfer

`queue_wise_payroll_event` keeps, in four columns of a payment, the newest event of its transfer: an event
is written only if it is newer than the one the row holds. No other function writes these columns, so what
a run leaves in them depends on the events that were delivered and not on their order, on how often each was
delivered, or on the dispatches, reconciliations and callbacks between (`event_run`). An event that is written
makes the payment due at once.

An event is delivered as `handle_wise_webhook` does it, with an aware time and a transfer identifier in the
form of `WISE_TRANSFER_REFERENCE`. An event that comes before the payment carries the transfer is not stored.
-/
import Dayfinch.Library.Register
import Dayfinch.Payments.PaidOnce

namespace Dayfinch

open Library (run offerNewer)
open Library.Text

/-! ## Events -/

/-- A Wise event; `occurred_at` is an instant, shown at some offset. -/
structure WiseEvent where
  providerStatus : String
  occurredAt : Int
  utcoffset : Int := 0
  failureCode : String := ""
  failureDescription : String := ""
  deriving DecidableEq, Repr

/-- What a payment holds of an event. -/
structure TransferEvent where
  eventAt : Int
  status : String
  failureCode : String
  failureDescription : String
  deriving DecidableEq, Repr

/-- What is stored of an event: its texts without NUL and surrounding blanks, cut to their columns. -/
def transferEvent (eventAt : Int) (providerStatus failureCode failureDescription : String) : TransferEvent where
  eventAt := eventAt
  status := truncate 80 (lower (strip (withoutNul providerStatus)))
  failureCode := truncate 120 (strip (withoutNul failureCode))
  failureDescription := truncate 500 (collapse (withoutNul failureDescription))

def WiseEvent.stored (e : WiseEvent) : TransferEvent :=
  transferEvent e.occurredAt e.providerStatus e.failureCode e.failureDescription

/-- The delivery of an event through `queue_wise_payroll_event`. -/
def WiseEvent.delivery (e : WiseEvent) (transferId : String) : DeliveryOp :=
  .wiseEvent transferId e.providerStatus ⟨e.occurredAt + e.utcoffset, some e.utcoffset⟩ e.failureCode
    e.failureDescription

/-- The four columns that a payment has for the events of its transfer. -/
def PayrollPayment.event (p : PayrollPayment) : Option TransferEvent :=
  p.providerEventAt.map fun eventAt =>
    ⟨eventAt, p.providerStatus, p.providerFailureCode, p.providerFailureDescription⟩

/-- What an operation offers to the payment of a transfer. -/
def DeliveryOp.offered (transferId : String) : DeliveryOp → Option TransferEvent
  | .wiseEvent id providerStatus occurredAt failureCode failureDescription =>
    if id = transferId then
      occurredAt.toUtc?.map fun eventAt => transferEvent eventAt providerStatus failureCode failureDescription
    else none
  | _ => none

@[simp] theorem WiseEvent.offered_delivery (e : WiseEvent) (transferId : String) :
    (e.delivery transferId).offered transferId = some e.stored := by
  simp [WiseEvent.delivery, DeliveryOp.offered, Datetime.toUtc?, WiseEvent.stored]

/-- What is offered is offered by the delivery of an event. -/
theorem DeliveryOp.offered_eq_some {op : DeliveryOp} {transferId : String} {v : TransferEvent}
    (h : op.offered transferId = some v) : ∃ e : WiseEvent, op = e.delivery transferId ∧ v = e.stored := by
  cases op with
  | wiseEvent id providerStatus occurredAt failureCode failureDescription =>
    rw [offered] at h
    split at h
    · rename_i hid
      obtain ⟨eventAt, hat, rfl⟩ := Option.map_eq_some_iff.mp h
      obtain ⟨wall, offset⟩ := occurredAt
      obtain ⟨utcoffset, rfl, rfl⟩ := Option.map_eq_some_iff.mp hat
      refine ⟨⟨providerStatus, wall - utcoffset, utcoffset, failureCode, failureDescription⟩, ?_, rfl⟩
      simp [WiseEvent.delivery, hid]
    · cases h
  | _ => cases h

/-! ## One row -/

/-- The payment of a transfer. -/
structure PayrollPayment.Carries (p : PayrollPayment) (transferId : String) : Prop where
  provider : p.provider = .wise
  reference : p.externalReference = transferId

@[simp] theorem PayrollPayment.event_queueWiseEvent (p : PayrollPayment) (v : TransferEvent) (now : Int) :
    (p.queueWiseEvent v.status v.failureCode v.failureDescription v.eventAt now).event = some v := rfl

/-- Only an event writes the columns of events. -/
theorem Change.event_eq {s : DeliveryState} {op : DeliveryOp} {p p' : PayrollPayment} {transferId : String}
    (hcarries : p.Carries transferId)
    (hop : ∀ providerStatus occurredAt failureCode failureDescription,
      op ≠ .wiseEvent transferId providerStatus occurredAt failureCode failureDescription)
    (h : Change s op p p') : p'.event = p.event := by
  cases h with
  | same => rfl
  | claimed => rfl
  | recorded => rfl
  | recovered => rfl
  | event hevent hrow =>
    rw [← hrow.2, hcarries.reference] at hevent
    exact absurd hevent (hop _ _ _ _)
  | @deferred _ _ reason =>
    rcases p.deferReconciliation_cases reason s.now with hsame | ⟨_, _, _, hset⟩
    · rw [hsame]
    · rw [hset]
      rfl
  | settled => rfl

section

variable {store : PayrollStore} {p : PayrollPayment} {transferId : String}

/-- No two payments carry one transfer. -/
theorem PayrollStore.find?_carries (hp : p ∈ store.payments) (hcarries : p.Carries transferId)
    (hne : transferId ≠ "") :
    (store.payments.find? fun q => q.provider == .wise && q.externalReference == transferId) = some p := by
  cases hfind : store.payments.find? fun q => q.provider == .wise && q.externalReference == transferId with
  | none =>
    have hnot := List.find?_eq_none.mp hfind p hp
    simp [hcarries.provider, hcarries.reference] at hnot
  | some q =>
    have hq := List.find?_some hfind
    simp only [Bool.and_eq_true, beq_iff_eq] at hq
    have hshares : p.sharesReference q = true := by
      simp [PayrollPayment.sharesReference, hcarries.provider, hcarries.reference, hne, hq]
    have hmem := List.mem_of_find?_eq_some hfind
    rw [store.primaryKey.eq hp hmem (store.uniqueReference p hp q hmem hshares)]

/-- A write that keeps provider and reference is not refused. -/
theorem PayrollStore.update_succeeds (hp : p ∈ store.payments) (p' : PayrollPayment) (hid : p'.id = p.id)
    (hprovider : p'.provider = p.provider) (hreference : p'.externalReference = p.externalReference) :
    ∃ store', store.update p' = .ok store' ∧ store'.payments = store.paymentsWith p' := by
  have hfree : ¬ store.referenceTaken p' = true := by
    intro htaken
    obtain ⟨q, hq, htaken⟩ := List.any_eq_true.mp htaken
    rw [Bool.and_eq_true, bne_iff_ne, hid] at htaken
    refine htaken.1 (store.uniqueReference p hp q hq ?_).symm
    rw [PayrollPayment.sharesReference, ← hprovider, ← hreference]
    exact htaken.2
  unfold update
  rw [dif_neg hfree]
  exact ⟨_, rfl, rfl⟩

/-- `queue_wise_payroll_event` on a transfer that a payment carries. -/
theorem PayrollStore.queueWisePayrollEvent_carries (hp : p ∈ store.payments) (hcarries : p.Carries transferId)
    (hne : transferId ≠ "") (providerStatus failureCode failureDescription : String) {occurredAt : Datetime}
    {eventAt : Int} (hat : occurredAt.toUtc? = some eventAt) (now : Int) :
    let v := transferEvent eventAt providerStatus failureCode failureDescription
    ∃ store' outcome, store.queueWisePayrollEvent transferId providerStatus occurredAt failureCode
        failureDescription now = .ok (store', outcome) ∧
      store'.payments =
        if p.providerEventAt.any (eventAt ≤ ·) then store.payments
        else store.paymentsWith
          (p.queueWiseEvent v.status v.failureCode v.failureDescription v.eventAt now) := by
  intro v
  obtain ⟨store', hupdate, hpayments⟩ := PayrollStore.update_succeeds hp
    (p.queueWiseEvent v.status v.failureCode v.failureDescription v.eventAt now) rfl rfl rfl
  unfold queueWisePayrollEvent
  rw [hat]
  simp only [find?_carries hp hcarries hne]
  by_cases hstale : p.providerEventAt.any (eventAt ≤ ·) = true
  · rw [if_pos hstale, if_pos hstale]
    exact ⟨store, .stale, rfl, rfl⟩
  · rw [if_neg hstale, if_neg hstale]
    exact ⟨_, _, Library.bind_eq_ok.mpr ⟨store', hupdate, rfl⟩, hpayments⟩

end

/-! ## Steps and runs -/

section

variable {s : DeliveryState} {p : PayrollPayment} {transferId : String}

/-- What is offered on top of what is held; nothing offered leaves it. -/
def takeEvent (held : Option TransferEvent) (offered : Option TransferEvent) : Option TransferEvent :=
  offered.elim held (offerNewer TransferEvent.eventAt held)

theorem takeEvent_stale {v : TransferEvent} (h : p.providerEventAt.any (v.eventAt ≤ ·) = true) :
    takeEvent p.event (some v) = p.event := by
  obtain ⟨held, hheld, hle⟩ := (Option.any_eq_true _ _).mp h
  simp only [takeEvent, PayrollPayment.event, hheld, Option.map_some, Option.elim_some]
  exact Library.offerNewer_stale (by simpa using hle)

theorem takeEvent_taken {v : TransferEvent} (h : ¬ p.providerEventAt.any (v.eventAt ≤ ·) = true) :
    takeEvent p.event (some v) = some v := by
  refine Library.offerNewer_taken fun b hb => ?_
  obtain ⟨held, hheld, rfl⟩ := Option.map_eq_some_iff.mp hb
  rw [hheld] at h
  simpa using h

/-- The payments after the delivery of an event. -/
theorem step_event (hp : p ∈ s.store.payments) (hcarries : p.Carries transferId)
    (hne : transferId ≠ "") (providerStatus failureCode failureDescription : String) {occurredAt : Datetime}
    {eventAt : Int} (hat : occurredAt.toUtc? = some eventAt) :
    let v := transferEvent eventAt providerStatus failureCode failureDescription
    (deliveryStep s (.wiseEvent transferId providerStatus occurredAt failureCode
        failureDescription)).store.payments =
      if p.providerEventAt.any (eventAt ≤ ·) then s.store.payments
      else s.store.paymentsWith
        (p.queueWiseEvent v.status v.failureCode v.failureDescription v.eventAt s.now) := by
  intro v
  obtain ⟨store', outcome, hqueue, hpayments⟩ :=
    PayrollStore.queueWisePayrollEvent_carries hp hcarries hne providerStatus failureCode failureDescription
      hat s.now
  rw [← hpayments]
  simp only [deliveryStep, hqueue, Except.map, DeliveryState.commit]

/-- **One operation**: the payment stays the transfer's, and takes what is offered if it is newer. -/
theorem row_step (h : DeliveryInvariant s) (hp : p ∈ s.store.payments) (hcarries : p.Carries transferId)
    (hne : transferId ≠ "") (op : DeliveryOp) :
    ∃ p' ∈ (deliveryStep s op).store.payments, p'.id = p.id ∧ p'.Carries transferId ∧
      p'.event = takeEvent p.event (op.offered transferId) := by
  by_cases hop : ∃ providerStatus occurredAt failureCode failureDescription,
      op = .wiseEvent transferId providerStatus occurredAt failureCode failureDescription
  · obtain ⟨providerStatus, occurredAt, failureCode, failureDescription, rfl⟩ := hop
    cases hat : occurredAt.toUtc? with
    | none =>
      -- the function raises on a naive time
      refine ⟨p, ?_, rfl, hcarries, ?_⟩
      · simp only [deliveryStep, PayrollStore.queueWisePayrollEvent, hat, Except.map,
          DeliveryState.commit]
        exact hp
      · simp [DeliveryOp.offered, hat, takeEvent]
    | some eventAt =>
      rw [step_event hp hcarries hne providerStatus failureCode failureDescription hat]
      simp only [DeliveryOp.offered, if_pos, hat, Option.map_some]
      by_cases hstale : p.providerEventAt.any (eventAt ≤ ·) = true
      · rw [if_pos hstale, takeEvent_stale hstale]
        exact ⟨p, hp, rfl, hcarries, rfl⟩
      · rw [if_neg hstale, takeEvent_taken hstale]
        refine ⟨_, PayrollStore.mem_paymentsWith_self hp rfl, rfl, ⟨hcarries.provider, hcarries.reference⟩, ?_⟩
        exact PayrollPayment.event_queueWiseEvent p _ s.now
  · have hother : op.offered transferId = none := by
      cases hoffered : op.offered transferId with
      | none => rfl
      | some v =>
        obtain ⟨e, rfl, _⟩ := DeliveryOp.offered_eq_some hoffered
        exact absurd ⟨_, _, _, _, rfl⟩ hop
    have hboth := (List.forall₂_and_left _ _).mpr ⟨h.rows, deliveryStep_changes s op⟩
    obtain ⟨p', hp', hinvariant, hchange⟩ := Library.exists_of_forall₂_left hboth hp
    have hfollows := hchange.follows hinvariant
    refine ⟨p', hp', hfollows.id, ⟨?_, ?_⟩, ?_⟩
    · exact (hfollows.provider (by simp [hcarries.provider])).trans hcarries.provider
    · exact (hfollows.reference (by rwa [hcarries.reference])).trans hcarries.reference
    · rw [hother]
      refine hchange.event_eq hcarries fun providerStatus occurredAt failureCode failureDescription heq => ?_
      exact hop ⟨_, _, _, _, heq⟩

/-- **A run**: the payment holds the newest of what it held and of what has been offered to it. -/
theorem event_run (h : DeliveryInvariant s) (hp : p ∈ s.store.payments) (hcarries : p.Carries transferId)
    (hne : transferId ≠ "") (ops : List DeliveryOp) :
    ∃ p' ∈ (run deliveryStep s ops).store.payments, p'.id = p.id ∧ p'.Carries transferId ∧
      p'.event = (ops.filterMap (·.offered transferId)).foldl (offerNewer TransferEvent.eventAt) p.event := by
  induction ops generalizing s p with
  | nil => exact ⟨p, hp, rfl, hcarries, rfl⟩
  | cons op ops ih =>
    obtain ⟨p₁, hp₁, hid₁, hcarries₁, hevent₁⟩ := row_step h hp hcarries hne op
    obtain ⟨p', hp', hid', hcarries', hevent'⟩ := ih (h.step op) hp₁ hcarries₁
    refine ⟨p', hp', hid'.trans hid₁, hcarries', ?_⟩
    rw [hevent', hevent₁]
    cases hoffered : op.offered transferId with
    | none => simp [takeEvent, hoffered]
    | some v => simp [takeEvent, hoffered]

end

/-! ## Order does not matter -/

/-- Events of one transfer are told apart by their times. -/
def DistinctTimes (events : List WiseEvent) : Prop :=
  ∀ e ∈ events, ∀ e' ∈ events, e.occurredAt = e'.occurredAt → e = e'

/-- The events that a list of operations delivers, each any number of times. -/
def Delivers (transferId : String) (events : List WiseEvent) (ops : List DeliveryOp) : Prop :=
  ∀ e : WiseEvent, e.delivery transferId ∈ ops ↔ e ∈ events

theorem mem_offered_iff {transferId : String} {events : List WiseEvent} {ops : List DeliveryOp}
    (h : Delivers transferId events ops) {v : TransferEvent} :
    v ∈ ops.filterMap (·.offered transferId) ↔ ∃ e ∈ events, e.stored = v := by
  rw [List.mem_filterMap]
  constructor
  · rintro ⟨op, hop, hoffered⟩
    obtain ⟨e, rfl, rfl⟩ := DeliveryOp.offered_eq_some hoffered
    exact ⟨e, (h e).mp hop, rfl⟩
  · rintro ⟨e, he, rfl⟩
    exact ⟨_, (h e).mpr he, e.offered_delivery transferId⟩

/-- An event that a reconcilable payment takes makes it due at once. -/
theorem isDue_queueWiseEvent {p : PayrollPayment} {transferId : String} (hcarries : p.Carries transferId)
    (hne : transferId ≠ "") (hreconcilable : p.reconcilable = true) (v : TransferEvent) (now : Int) :
    (p.queueWiseEvent v.status v.failureCode v.failureDescription v.eventAt now).isDue .wise now = true := by
  have hstatus : p.status = .processing ∨ p.status = .paid ∨ p.status = .failed := by
    simpa only [PayrollPayment.reconcilable, Bool.or_eq_true, beq_iff_eq, or_assoc] using hreconcilable
  have hdays : now < now + days 90 := by
    simp [days, seconds]
  simp only [PayrollPayment.isDue, PayrollPayment.queueWiseEvent, hcarries.provider, hcarries.reference,
    hreconcilable]
  rcases hstatus with hstatus | hstatus | hstatus
  · simp [PayrollPayment.reconcilable, hstatus, hne]
  · simp [PayrollPayment.reconcilable, hstatus, hne, hdays]
  · simp [PayrollPayment.reconcilable, hstatus, hne]

/-- **The events of a transfer come in any order**: after any run the payment holds the event of the greatest
`occurred_at` of those that were delivered, whatever else was done; and an event that is the newest when it
arrives makes a processing, paid or failed payment due at once. -/
theorem wiseEvents_run (store : PayrollStore) (now : Int) (before ops : List DeliveryOp) {transferId : String}
    (hid : wiseTransferReference transferId = true) {p : PayrollPayment}
    (hp : p ∈ (run deliveryStep (.undelivered store now) before).store.payments)
    (hcarries : p.Carries transferId) (hfirst : p.event = none) {events : List WiseEvent}
    (hdelivers : Delivers transferId events ops) (hdistinct : DistinctTimes events) :
    (∃ p' ∈ (run deliveryStep (.undelivered store now) (before ++ ops)).store.payments, p'.id = p.id ∧
      (events = [] → p'.event = none) ∧
      ∀ e ∈ events, (∀ e' ∈ events, e'.occurredAt ≤ e.occurredAt) → p'.event = some e.stored) ∧
    ∀ (arrived later : List DeliveryOp) (e : WiseEvent), ops = arrived ++ e.delivery transferId :: later →
      (∀ e' : WiseEvent, e'.delivery transferId ∈ arrived → e'.occurredAt < e.occurredAt) →
      ∀ q ∈ (run deliveryStep (.undelivered store now) (before ++ arrived)).store.payments, q.id = p.id →
        q.status = .processing ∨ q.status = .paid ∨ q.status = .failed →
        ∃ q' ∈ (run deliveryStep (.undelivered store now)
            (before ++ arrived ++ [e.delivery transferId])).store.payments,
          q'.id = p.id ∧
            q'.nextReconcileAt = some (run deliveryStep (.undelivered store now) (before ++ arrived)).now ∧
            q'.isDue .wise (run deliveryStep (.undelivered store now) (before ++ arrived)).now = true := by
  have hne : transferId ≠ "" := by
    rintro rfl
    exact absurd hid (by decide)
  have hinvariant := deliveryInvariant_run (deliveryInvariant_undelivered store now) before
  constructor
  · rw [Library.run_append]
    obtain ⟨p', hp', hid', _, hevent⟩ := event_run hinvariant hp hcarries hne ops
    rw [hfirst] at hevent
    refine ⟨p', hp', hid', fun hnone => ?_, fun e he hgreatest => ?_⟩
    · rw [hevent, List.filterMap_eq_nil_iff.mpr, List.foldl_nil]
      intro op hop
      cases hoffered : op.offered transferId with
      | none => rfl
      | some v =>
          obtain ⟨e, rfl, _⟩ := DeliveryOp.offered_eq_some hoffered
          have he := (hdelivers e).mp hop
          rw [hnone] at he
          cases he
    · have hoffered : e.stored ∈ ops.filterMap (·.offered transferId) := (mem_offered_iff hdelivers).mpr ⟨e, he, rfl⟩
      cases hheld : p'.event with
      | none =>
          rw [(Library.foldl_offerNewer_eq_none (hevent.symm.trans hheld)).2] at hoffered
          cases hoffered
      | some v =>
          obtain ⟨hfrom, _, hnewest⟩ := Library.foldl_offerNewer_eq_some (hevent.symm.trans hheld)
          obtain ⟨e', he', rfl⟩ := (mem_offered_iff hdelivers).mp (hfrom.resolve_left nofun)
          have hle : e.occurredAt ≤ e'.occurredAt := hnewest _ hoffered
          rw [hdistinct e' he' e he (le_antisymm (hgreatest e' he') hle)]
  · rintro arrived later e rfl hnewer q hq hqid hstatus
    rw [Library.run_append] at hq
    obtain ⟨q', hq', hid', hcarries', hevent⟩ := event_run hinvariant hp hcarries hne arrived
    obtain rfl : q = q' := PayrollStore.primaryKey _ |>.eq hq hq' (hqid.trans hid'.symm)
    rw [hfirst] at hevent
    rw [Library.run_append _ _ (before ++ arrived), Library.run_cons, Library.run_nil, Library.run_append]
    generalize run deliveryStep (run deliveryStep (.undelivered store now) before) arrived = s at hq ⊢
    have hfresh : ¬ q.providerEventAt.any (e.occurredAt ≤ ·) = true := by
      intro hstale
      obtain ⟨held, hheld, hle⟩ := (Option.any_eq_true _ _).mp hstale
      have hsome : q.event = some ⟨held, q.providerStatus, q.providerFailureCode,
          q.providerFailureDescription⟩ := by
        rw [PayrollPayment.event, hheld, Option.map_some]
      obtain ⟨hfrom, _, _⟩ := Library.foldl_offerNewer_eq_some (hevent.symm.trans hsome)
      obtain ⟨op, hop, hoffered⟩ := List.mem_filterMap.mp (hfrom.resolve_left nofun)
      obtain ⟨e', rfl, hstored⟩ := DeliveryOp.offered_eq_some hoffered
      have hlt := hnewer e' hop
      have hat : held = e'.occurredAt := congrArg TransferEvent.eventAt hstored
      simp only [decide_eq_true_eq] at hle
      omega
    have hat : Datetime.toUtc? ⟨e.occurredAt + e.utcoffset, some e.utcoffset⟩ = some e.occurredAt := by
      simp [Datetime.toUtc?]
    have hreconcilable : q.reconcilable = true := by
      rcases hstatus with hstatus | hstatus | hstatus <;> simp [PayrollPayment.reconcilable, hstatus]
    rw [WiseEvent.delivery, step_event hq hcarries' hne _ _ _ hat, if_neg hfresh]
    refine ⟨_, PayrollStore.mem_paymentsWith_self hq rfl, hqid, ?_, ?_⟩
    · exact if_pos hreconcilable
    · exact isDue_queueWiseEvent hcarries' hne hreconcilable _ s.now

/-- A transfer's events: it is sent out, and bounces. -/
def outgoingSent : WiseEvent where
  providerStatus := "outgoing_payment_sent"
  occurredAt := 20

def bouncedBack : WiseEvent where
  providerStatus := "Bounced_Back "
  occurredAt := 50
  utcoffset := 3600

/-- The payment is dispatched, and its transfer created. -/
def transferCreated : List DeliveryOp :=
  [.send 1 .wise, .reply 0 (.transfer "16521632" true)]

/-- The later event comes first and twice, and there is a reconciliation between. -/
def lateFirst : List DeliveryOp :=
  [bouncedBack.delivery "16521632", .reconcile 1 true,
    .reply 1 (.transferState "16521632" "outgoing_payment_sent"), outgoingSent.delivery "16521632",
    bouncedBack.delivery "16521632"]

theorem delivers_lateFirst : Delivers "16521632" [outgoingSent, bouncedBack] lateFirst := by
  intro e
  obtain ⟨status, occurredAt, utcoffset, code, description⟩ := e
  simp only [lateFirst, WiseEvent.delivery, outgoingSent, bouncedBack, List.mem_cons,
    DeliveryOp.wiseEvent.injEq, WiseEvent.mk.injEq, Datetime.mk.injEq, reduceCtorEq, List.not_mem_nil,
    Option.some.injEq]
  grind

theorem wiseEvents_run_lateFirst :
    ∃ p' ∈ (run deliveryStep (.undelivered onePayment 0) (transferCreated ++ lateFirst)).store.payments,
      p'.event = some ⟨50, "bounced_back", "", ""⟩ := by
  obtain ⟨p, hp, hprovider, hreference, hfirst⟩ :
      ∃ p ∈ (run deliveryStep (.undelivered onePayment 0) transferCreated).store.payments,
        p.provider = .wise ∧ p.externalReference = "16521632" ∧ p.event = none := by decide +kernel
  have hdistinct : DistinctTimes [outgoingSent, bouncedBack] := by
    unfold DistinctTimes
    decide
  obtain ⟨⟨p', hp', _, _, hevent⟩, _⟩ := wiseEvents_run onePayment 0 transferCreated lateFirst (by decide) hp
    ⟨hprovider, hreference⟩ hfirst delivers_lateFirst hdistinct
  have hstored : bouncedBack.stored = ⟨50, "bounced_back", "", ""⟩ := by decide +kernel
  rw [← hstored]
  exact ⟨p', hp', hevent bouncedBack (by decide) (by decide)⟩

/-! ## The clock -/

theorem commit_now (s : DeliveryState) (result : Except Error PayrollStore) : (s.commit result).now = s.now := by
  cases result <;> rfl

theorem report_now (s : DeliveryState) (i : Nat) (call : Call) (report : Report) (next : Option Stage) :
    (s.report i call report next).now = s.now := by
  unfold DeliveryState.report
  split <;> rfl

/-- The clock does not go back. -/
theorem now_le_step (s : DeliveryState) (op : DeliveryOp) : s.now ≤ (deliveryStep s op).now := by
  cases op with
  | send paymentId provider =>
    simp only [deliveryStep]
    split <;> exact le_rfl
  | reconcile paymentId scheduled =>
    simp only [deliveryStep]
    split <;> exact le_rfl
  | reply i reply =>
    simp only [deliveryStep]
    split
    · exact le_rfl
    · rename_i call _
      unfold DeliveryState.receive
      split
      · exact le_rfl
      · exact le_rfl
      · exact le_rfl
      · exact (report_now ..).ge
  | settle i =>
    simp only [deliveryStep]
    split
    · exact le_rfl
    · rename_i call _
      unfold DeliveryState.settle
      split
      · split <;> exact le_rfl
      · split <;> exact le_rfl
      · exact le_rfl
  | abandon i => exact le_rfl
  | callback payload =>
    simp only [deliveryStep]
    split
    · exact le_rfl
    · exact (commit_now ..).ge
  | wiseEvent transferId providerStatus occurredAt failureCode failureDescription => exact (commit_now ..).ge
  | recover provider staleMinutes => exact le_rfl
  | setFinancialStatus itemId status => exact (commit_now ..).ge
  | tick elapsed =>
    simp only [deliveryStep]
    omega

end Dayfinch
