/-
# Dayfinch.Integrations.Webhooks -- a webhook delivery is processed once

GitHub and Wise send a webhook again until it is answered, and any worker may take it. A worker records
the delivery before it processes it; the record is a lease of ten minutes, after which another worker may
take the delivery over. When the worker is done it writes the outcome.

The write of the outcome names the delivery and not the worker, so a worker whose lease has passed to
another one still writes. `finishesOwn` is the condition that it writes nothing over a settled outcome and
does not fail a delivery that another worker has under its lease. In runs that meet it at most one worker
at a time holds the lease of a delivery, and what is settled stays (`WebhookInvariant`).
-/
import Dayfinch.Library.Run
import Dayfinch.Schema

namespace Dayfinch

open Library (updateWhere orderBy UniqueKey run Guarded guarded_append guarded_invariant)

/-! ## The table -/

/-- `integration_webhook_deliveries.outcome`. -/
inductive WebhookOutcome
  | received | processed | ignored | failed
  deriving DecidableEq, Repr

/-- `integration_webhook_deliveries`. -/
structure WebhookDelivery where
  provider : String
  deliveryId : String
  eventName : String
  receivedAt : Int
  processedAt : Option Int
  outcome : WebhookOutcome
  deriving DecidableEq, Repr

/-- The primary key. -/
def WebhookDelivery.key (row : WebhookDelivery) : String × String := (row.provider, row.deliveryId)

/-- The delivery was processed or ignored. -/
def WebhookDelivery.settled (row : WebhookDelivery) : Bool :=
  row.outcome == .processed || row.outcome == .ignored

/-- `CHECK(length(event_name) BETWEEN 1 AND 80)`. -/
def isEventName (eventName : String) : Bool := 1 ≤ eventName.length && eventName.length ≤ 80

/-- `CHECK(length(delivery_id) BETWEEN 1 AND 120)`. -/
def isDeliveryId (deliveryId : String) : Bool := 1 ≤ deliveryId.length && deliveryId.length ≤ 120

/-- The time for which a delivery stays with the worker that has begun it. -/
def webhookLease : Int := minutes 10

/-- A worker may take the delivery: it failed, or its lease has run out. -/
def WebhookDelivery.available (row : WebhookDelivery) (observedAt : Int) : Bool :=
  row.outcome == .failed || (row.outcome == .received && row.receivedAt < observedAt - webhookLease)

/-- The row with this key. -/
def delivery? (rows : List WebhookDelivery) (key : String × String) : Option WebhookDelivery :=
  rows.find? (·.key == key)

/-- `begin_integration_webhook`. -/
def beginIntegrationWebhook (rows : List WebhookDelivery) (provider deliveryId eventName : String)
    (observedAt : Int) : Except Error (List WebhookDelivery × Bool) :=
  if isDeliveryId deliveryId = false ∨ isEventName eventName = false then .error .checkViolation
  else
    match delivery? rows (provider, deliveryId) with
    | none =>
      .ok (rows ++ [{ provider, deliveryId, eventName, receivedAt := observedAt, processedAt := none,
                      outcome := .received }], true)
    | some row =>
      if row.available observedAt then
        .ok (updateWhere (·.key == (provider, deliveryId))
          (fun row => { row with
            eventName, receivedAt := observedAt, outcome := .received, processedAt := none }) rows, true)
      else .ok (rows, false)

/-- `finish_integration_webhook`. -/
def finishIntegrationWebhook (rows : List WebhookDelivery) (provider deliveryId : String)
    (outcome : WebhookOutcome) (now : Int) : Except Error (List WebhookDelivery) := do
  raiseIf (outcome = .received) "Invalid integration webhook outcome"
  return updateWhere (·.key == (provider, deliveryId))
    (fun row => { row with outcome, processedAt := some now }) rows

/-- `purge_integration_webhooks`: the oldest rows before `cutoff` are deleted. -/
def purgeIntegrationWebhooks (tie : WebhookDelivery → Nat) (rows : List WebhookDelivery) (cutoff : Int)
    (limit : Int) : List WebhookDelivery :=
  let oldest := orderBy (·.receivedAt) tie (rows.filter (·.receivedAt < cutoff))
  let purged := oldest.take (min (max limit 1) 10000).toNat
  rows.filter fun row => !(purged.map (·.key)).contains row.key

/-! ## Workers -/

/-- Where a worker is with a delivery: it has read the clock, or it has begun and is processing. -/
inductive WebhookWorker
  | idle
  | received (provider deliveryId eventName : String) (observedAt : Int)
  | processing (provider deliveryId : String) (observedAt : Int)
  deriving DecidableEq, Repr

/-- The table, the workers, and the time of the last step. -/
structure WebhookState where
  deliveries : List WebhookDelivery := []
  workers : Nat → WebhookWorker := fun _ => .idle
  clock : Int

/-- A step: a worker is handed a delivery and reads the clock, begins it, writes what its processing came
to, or dies; or the table is purged of what is older than 90 days. -/
inductive WebhookOp
  | receive (worker : Nat) (provider deliveryId eventName : String) (now : Int)
  | beginDelivery (worker : Nat) (now : Int)
  | finish (worker : Nat) (outcome : WebhookOutcome) (now : Int)
  | die (worker : Nat)
  | purge (tie : WebhookDelivery → Nat) (limit : Int) (now : Int)

/-- When the step is taken. -/
def WebhookOp.time? : WebhookOp → Option Int
  | .receive _ _ _ _ now | .beginDelivery _ now | .finish _ _ now | .purge _ _ now => some now
  | .die _ => none

namespace WebhookState

/-- A worker moves on. -/
def setWorker (s : WebhookState) (worker : Nat) (phase : WebhookWorker) : WebhookState :=
  { s with workers := fun w => if w = worker then phase else s.workers w }

/-- The worker begins; it is done with a duplicate, and with a delivery that raises. -/
def beginDelivery (s : WebhookState) (worker : Nat) : WebhookState :=
  match s.workers worker with
  | .received provider deliveryId eventName observedAt =>
    match beginIntegrationWebhook s.deliveries provider deliveryId eventName observedAt with
    | .ok (deliveries, true) =>
      { s with deliveries }.setWorker worker (.processing provider deliveryId observedAt)
    | _ => s.setWorker worker .idle
  | _ => s

/-- The worker writes the outcome. -/
def finish (s : WebhookState) (worker : Nat) (outcome : WebhookOutcome) (now : Int) : WebhookState :=
  match s.workers worker with
  | .processing provider deliveryId _ =>
    match finishIntegrationWebhook s.deliveries provider deliveryId outcome now with
    | .ok deliveries => { s with deliveries }.setWorker worker .idle
    | .error _ => s.setWorker worker .idle
  | _ => s

end WebhookState

/-- What a step makes of the table and the workers. -/
def WebhookOp.apply (s : WebhookState) : WebhookOp → WebhookState
  | .receive worker provider deliveryId eventName now =>
    if s.workers worker = .idle then
      s.setWorker worker (.received provider deliveryId eventName now)
    else s
  | .beginDelivery worker _ => s.beginDelivery worker
  | .finish worker outcome now => s.finish worker outcome now
  | .die worker => s.setWorker worker .idle
  | .purge tie limit now =>
    { s with deliveries := purgeIntegrationWebhooks tie s.deliveries (now - days 90) limit }

/-- One step. -/
def webhookStep (s : WebhookState) (op : WebhookOp) : WebhookState :=
  op.apply { s with clock := op.time?.getD s.clock }

/-! ## The properties -/

/-- The worker is processing the delivery, and the ten minutes have not passed. -/
def WebhookState.holdsLease (s : WebhookState) (worker : Nat) (key : String × String) : Prop :=
  ∃ observedAt, s.workers worker = .processing key.1 key.2 observedAt ∧
    s.clock ≤ observedAt + webhookLease

/-- At most one worker holds the lease of a delivery, and no worker begins one that is settled. -/
structure ProcessedOnce (s : WebhookState) : Prop where
  lease : ∀ worker worker' key, s.holdsLease worker key → s.holdsLease worker' key → worker = worker'
  duplicate : ∀ row ∈ s.deliveries, row.settled = true → ∀ eventName observedAt,
    isEventName eventName = true →
    beginIntegrationWebhook s.deliveries row.provider row.deliveryId eventName observedAt =
      .ok (s.deliveries, false)

/-- A settled delivery is left as it is, unless the step purges the table. -/
def KeepsSettledDelivery (s : WebhookState) (op : WebhookOp) : Prop :=
  ∀ row ∈ s.deliveries, row.settled = true →
    row ∈ (webhookStep s op).deliveries ∨ ∃ tie limit now, op = .purge tie limit now

/-- **Every delivery is processed once**, in every state and by every step of the run. -/
def WebhooksProcessedOnce (clock : Int) (ops : List WebhookOp) : Prop :=
  (∀ before after, ops = before ++ after → ProcessedOnce (run webhookStep { clock } before)) ∧
    ∀ before op after, ops = before ++ op :: after → KeepsSettledDelivery (run webhookStep { clock } before) op

/-! ## The condition -/

/-- The clock does not go back. -/
def WebhookOp.monotone (s : WebhookState) (op : WebhookOp) : Bool := op.time?.all (s.clock ≤ ·)

/-- An outcome is not written over a settled one, and `failed` is not written over another worker's lease
that has not run out. -/
def WebhookOp.finishesOwn (s : WebhookState) : WebhookOp → Bool
  | .finish worker outcome now =>
    match s.workers worker with
    | .processing provider deliveryId observedAt =>
      (delivery? s.deliveries (provider, deliveryId)).all fun row =>
        !row.settled && !(outcome == .failed && row.outcome == .received &&
          row.receivedAt != observedAt && now ≤ row.receivedAt + webhookLease)
    | _ => true
  | _ => true

/-! ## Lookups -/

section

variable {rows rows' : List WebhookDelivery} {key : String × String}

theorem delivery?_eq_some (hkeys : UniqueKey (·.key) rows) {row : WebhookDelivery} :
    delivery? rows key = some row ↔ row ∈ rows ∧ row.key = key := by
  constructor
  · intro h
    exact ⟨List.mem_of_find?_eq_some h, by simpa using List.find?_some h⟩
  · rintro ⟨hmem, rfl⟩
    exact hkeys.find?_eq hmem

/-- A settled delivery is not available. -/
theorem not_available_of_settled {row : WebhookDelivery} (h : row.settled = true) (observedAt : Int) :
    row.available observedAt = false := by
  unfold WebhookDelivery.settled at h
  unfold WebhookDelivery.available
  rcases Bool.or_eq_true _ _ ▸ h with hprocessed | hignored
  · rw [beq_iff_eq] at hprocessed
    simp [hprocessed]
  · rw [beq_iff_eq] at hignored
    simp [hignored]

/-! ## What begins and finishes write -/

/-- **A delivery that is begun** was available, and is under a new lease; the others stay. -/
theorem beginIntegrationWebhook_granted {provider deliveryId eventName : String} {observedAt : Int}
    (hkeys : UniqueKey (·.key) rows)
    (h : beginIntegrationWebhook rows provider deliveryId eventName observedAt = .ok (rows', true)) :
    isDeliveryId deliveryId = true ∧ UniqueKey (·.key) rows' ∧
      (∀ row ∈ rows, row.key = (provider, deliveryId) → row.available observedAt = true) ∧
      (∀ row ∈ rows, row.key ≠ (provider, deliveryId) → row ∈ rows') ∧
      (∀ row ∈ rows', row ∈ rows ∧ row.key ≠ (provider, deliveryId) ∨
        row.key = (provider, deliveryId) ∧ row.outcome = .received ∧ row.receivedAt = observedAt) ∧
      ∃ row ∈ rows', row.key = (provider, deliveryId) := by
  unfold beginIntegrationWebhook at h
  split at h
  · cases h
  · rename_i hchecked
    rw [not_or, Bool.not_eq_false, Bool.not_eq_false] at hchecked
    refine ⟨hchecked.1, ?_⟩
    split at h
    · -- a new row
      rename_i hnone
      have habsent : ∀ row ∈ rows, row.key ≠ (provider, deliveryId) := fun row hrow heq => by
        have := List.find?_eq_none.mp hnone row hrow
        simp [heq] at this
      obtain rfl := (Prod.mk.inj (Except.ok.inj h)).1
      refine ⟨hkeys.append_fresh habsent, ?_, ?_, ?_, ?_⟩
      · exact fun row hrow heq => absurd heq (habsent row hrow)
      · exact fun row hrow _ => List.mem_append_left _ hrow
      · intro row hrow
        rcases List.mem_append.mp hrow with hold | hnew
        · exact .inl ⟨hold, habsent row hold⟩
        · rw [List.mem_singleton.mp hnew]
          exact .inr ⟨rfl, rfl, rfl⟩
      · exact ⟨_, List.mem_append_right _ List.mem_cons_self, rfl⟩
    · -- the row is taken over
      rename_i old hold
      obtain ⟨hmem, hkey⟩ := (delivery?_eq_some hkeys).mp hold
      split at h
      · rename_i havailable
        obtain rfl := (Prod.mk.inj (Except.ok.inj h)).1
        refine ⟨hkeys.updateWhere fun _ => rfl, ?_, ?_, ?_, ?_⟩
        · intro row hrow heq
          obtain rfl := hkeys.eq hrow hmem (heq.trans hkey.symm)
          exact havailable
        · intro row hrow hne
          exact Library.mem_updateWhere_of_false hrow (beq_false_of_ne hne)
        · intro row hrow
          rcases Library.mem_updateWhere_cases hrow with ⟨hrow, hother⟩ | ⟨q, _, hq, rfl⟩
          · exact .inl ⟨hrow, ne_of_beq_false hother⟩
          · exact .inr ⟨beq_iff_eq.mp hq, rfl, rfl⟩
        · refine ⟨_, Library.mem_updateWhere_of_mem hmem, ?_⟩
          split
          · exact hkey
          · exact hkey
      · cases h

/-- A worker does not begin a settled delivery. -/
theorem beginIntegrationWebhook_settled (hkeys : UniqueKey (·.key) rows) {row : WebhookDelivery}
    (hrow : row ∈ rows) (hsettled : row.settled = true) (hid : isDeliveryId row.deliveryId = true)
    {eventName : String} (hevent : isEventName eventName = true) (observedAt : Int) :
    beginIntegrationWebhook rows row.provider row.deliveryId eventName observedAt = .ok (rows, false) := by
  have hfind : delivery? rows (row.provider, row.deliveryId) = some row :=
    (delivery?_eq_some hkeys).mpr ⟨hrow, rfl⟩
  unfold beginIntegrationWebhook
  rw [if_neg (by simp [hid, hevent]), hfind]
  dsimp only
  rw [not_available_of_settled hsettled]
  rfl

/-- What is younger than the cutoff is not purged. -/
theorem mem_purge_of_young (hkeys : UniqueKey (·.key) rows) {row : WebhookDelivery} (hrow : row ∈ rows)
    {tie : WebhookDelivery → Nat} {cutoff limit : Int} (hyoung : cutoff ≤ row.receivedAt) :
    row ∈ purgeIntegrationWebhooks tie rows cutoff limit := by
  refine List.mem_filter.mpr ⟨hrow, ?_⟩
  rw [Bool.not_eq_true', ← Bool.not_eq_true, List.contains_iff_mem, List.mem_map]
  rintro ⟨old, hold, hkey⟩
  have hmem := (List.mem_filter.mp (Library.mem_orderBy.mp (List.mem_of_mem_take hold)))
  obtain rfl := hkeys.eq hmem.1 hrow hkey
  have hlt : old.receivedAt < cutoff := by simpa using hmem.2
  omega

theorem purge_sublist (tie : WebhookDelivery → Nat) (cutoff limit : Int) :
    (purgeIntegrationWebhooks tie rows cutoff limit).Sublist rows := List.filter_sublist

end

/-! ## The invariant -/

/-- A worker that holds a lease finds the row of its delivery as it has begun it, or settled. -/
structure WebhookInvariant (s : WebhookState) : Prop where
  keys : UniqueKey (·.key) s.deliveries
  checked : ∀ row ∈ s.deliveries, isDeliveryId row.deliveryId = true
  past : ∀ worker provider deliveryId eventName observedAt,
    s.workers worker = .received provider deliveryId eventName observedAt → observedAt ≤ s.clock
  row : ∀ worker key observedAt, s.workers worker = .processing key.1 key.2 observedAt →
    s.clock ≤ observedAt + webhookLease →
    ∃ row ∈ s.deliveries, row.key = key ∧ row.receivedAt = observedAt ∧ row.outcome ≠ .failed
  lease : ∀ worker worker' key, s.holdsLease worker key → s.holdsLease worker' key → worker = worker'

section

variable {s : WebhookState}

theorem webhookInvariant_start (clock : Int) : WebhookInvariant { clock } where
  keys := List.nodup_nil
  checked := fun _ hrow => nomatch hrow
  past := fun _ _ _ _ _ h => nomatch h
  row := fun _ _ _ h => nomatch h
  lease := fun _ _ _ h => by obtain ⟨_, hphase, _⟩ := h; cases hphase

/-- Time passes. -/
theorem WebhookInvariant.tick (h : WebhookInvariant s) {clock : Int} (hle : s.clock ≤ clock) :
    WebhookInvariant { s with clock } where
  keys := h.keys
  checked := h.checked
  past := fun worker p d e t hphase => (h.past worker p d e t hphase).trans hle
  row := fun worker key t hphase hheld => h.row worker key t hphase (hle.trans hheld)
  lease := by
    rintro worker worker' key ⟨t, hphase, hheld⟩ ⟨t', hphase', hheld'⟩
    exact h.lease worker worker' key ⟨t, hphase, hle.trans hheld⟩ ⟨t', hphase', hle.trans hheld'⟩

/-- A worker that leaves a delivery leaves the leases of the others. -/
theorem holdsLease_setWorker {worker v : Nat} {phase : WebhookWorker} {key : String × String}
    (hphase : ∀ provider deliveryId t, phase ≠ .processing provider deliveryId t)
    (h : (s.setWorker worker phase).holdsLease v key) : v ≠ worker ∧ s.holdsLease v key := by
  obtain ⟨t, hv, hheld⟩ := h
  by_cases heq : v = worker
  · subst heq
    exact absurd ((if_pos rfl).symm.trans hv) (hphase _ _ _)
  · exact ⟨heq, t, (if_neg heq).symm.trans hv, hheld⟩

/-- A worker moves to a phase in which it processes nothing. -/
theorem WebhookInvariant.setWorker (h : WebhookInvariant s) (worker : Nat) {phase : WebhookWorker}
    (hphase : ∀ provider deliveryId t, phase ≠ .processing provider deliveryId t)
    (hpast : ∀ p d e t, phase = .received p d e t → t ≤ s.clock) :
    WebhookInvariant (s.setWorker worker phase) where
  keys := h.keys
  checked := h.checked
  past := by
    intro v p d e t hv
    by_cases heq : v = worker
    · exact hpast p d e t ((if_pos heq).symm.trans hv)
    · exact h.past v p d e t ((if_neg heq).symm.trans hv)
  row := by
    intro v key t hv hheld
    by_cases heq : v = worker
    · exact absurd ((if_pos heq).symm.trans hv) (hphase _ _ _)
    · exact h.row v key t ((if_neg heq).symm.trans hv) hheld
  lease := fun v v' key hv hv' =>
    h.lease v v' key (holdsLease_setWorker hphase hv).2 (holdsLease_setWorker hphase hv').2

/-- **A worker begins**: no other one holds the lease, since the row was available. -/
theorem WebhookInvariant.beginDelivery (h : WebhookInvariant s) (worker : Nat) :
    WebhookInvariant (s.beginDelivery worker) := by
  have hidle : WebhookInvariant (s.setWorker worker .idle) :=
    h.setWorker worker (fun _ _ _ => WebhookWorker.noConfusion) fun _ _ _ _ heq => nomatch heq
  unfold WebhookState.beginDelivery
  split
  · rename_i provider deliveryId eventName observedAt hworker
    split
    · rename_i deliveries hbegin
      obtain ⟨hid, hkeys, havailable, hkept, hrows, row, hrow, hrowKey⟩ :=
        beginIntegrationWebhook_granted h.keys hbegin
      have hnow := h.past worker _ _ _ _ hworker
      -- another worker's lease would be on a row that is not available
      have hother : ∀ v t, s.workers v = .processing provider deliveryId t →
          ¬ s.clock ≤ t + webhookLease := by
        intro v t hv hheld
        obtain ⟨old, hold, hkey, ht, hfailed⟩ := h.row v (provider, deliveryId) t hv hheld
        have hfree := havailable old hold hkey
        simp only [WebhookDelivery.available, Bool.or_eq_true, Bool.and_eq_true, beq_iff_eq, hfailed,
          false_or, decide_eq_true_eq] at hfree
        omega
      have hworkers : ∀ {v key t}, (({ s with deliveries } : WebhookState).setWorker worker
          (.processing provider deliveryId observedAt)).workers v = .processing key.1 key.2 t →
          s.clock ≤ t + webhookLease → v = worker ∧ key = (provider, deliveryId) ∧ t = observedAt ∨
            v ≠ worker ∧ key ≠ (provider, deliveryId) ∧ s.workers v = .processing key.1 key.2 t := by
        intro v key t hv hheld
        by_cases heq : v = worker
        · have hphase := (if_pos heq).symm.trans hv
          obtain ⟨hp, hd, ht⟩ := WebhookWorker.processing.inj hphase
          exact .inl ⟨heq, Prod.ext hp.symm hd.symm, ht.symm⟩
        · have hphase : s.workers v = .processing key.1 key.2 t := (if_neg heq).symm.trans hv
          refine .inr ⟨heq, ?_, hphase⟩
          rintro rfl
          exact hother v t hphase hheld
      refine ⟨hkeys, ?_, ?_, ?_, ?_⟩
      · intro q hq
        rcases hrows q hq with ⟨hold, _⟩ | ⟨hkey, _⟩
        · exact h.checked q hold
        · rw [show q.deliveryId = deliveryId from congrArg Prod.snd hkey]
          exact hid
      · intro v p d e t hv
        by_cases heq : v = worker
        · have hphase := (if_pos heq).symm.trans hv
          cases hphase
        · exact h.past v p d e t ((if_neg heq).symm.trans hv)
      · intro v key t hv hheld
        rcases hworkers hv hheld with ⟨_, rfl, rfl⟩ | ⟨_, hkey, hold⟩
        · rcases hrows row hrow with ⟨_, hne⟩ | ⟨_, hreceived, ht⟩
          · exact absurd hrowKey hne
          · exact ⟨row, hrow, hrowKey, ht, by simp [hreceived]⟩
        · obtain ⟨q, hq, hqkey, hqt, hqfailed⟩ := h.row v key t hold hheld
          exact ⟨q, hkept q hq (hqkey ▸ hkey), hqkey, hqt, hqfailed⟩
      · rintro v v' key ⟨t, hv, hheld⟩ ⟨t', hv', hheld'⟩
        rcases hworkers hv hheld with ⟨rfl, hkey, _⟩ | ⟨_, hkey, hold⟩
        · rcases hworkers hv' hheld' with ⟨rfl, _, _⟩ | ⟨_, hne, _⟩
          · rfl
          · exact absurd hkey hne
        · rcases hworkers hv' hheld' with ⟨_, heq, _⟩ | ⟨_, _, hold'⟩
          · exact absurd heq hkey
          · exact h.lease v v' key ⟨t, hold, hheld⟩ ⟨t', hold', hheld'⟩
    · exact hidle
  · exact h

/-- **A worker finishes**: it settles a delivery that is not settled, or fails one that no other worker
has under its lease. -/
theorem WebhookInvariant.finish (h : WebhookInvariant s) {worker : Nat} {outcome : WebhookOutcome}
    (hown : (WebhookOp.finish worker outcome s.clock).finishesOwn s = true) :
    WebhookInvariant (s.finish worker outcome s.clock) := by
  have hidle : WebhookInvariant (s.setWorker worker .idle) :=
    h.setWorker worker (fun _ _ _ => WebhookWorker.noConfusion) fun _ _ _ _ heq => nomatch heq
  unfold WebhookState.finish
  split
  · rename_i provider deliveryId observedAt hworker
    split
    · rename_i deliveries hfinish
      unfold finishIntegrationWebhook at hfinish
      obtain ⟨_, houtcome, hdeliveries⟩ := Library.bind_eq_ok.mp hfinish
      rw [raiseIf_eq_ok] at houtcome
      obtain rfl := Except.ok.inj hdeliveries
      refine ⟨h.keys.updateWhere fun _ => rfl, ?_, hidle.past, ?_, hidle.lease⟩
      · intro row hrow
        rcases Library.mem_updateWhere_cases hrow with ⟨hold, _⟩ | ⟨old, hold, _, rfl⟩
        · exact h.checked row hold
        · exact h.checked old hold
      · intro v key t hv hheld
        have hholds : (s.setWorker worker .idle).holdsLease v key := ⟨t, hv, hheld⟩
        obtain ⟨hne, hlease⟩ :=
          holdsLease_setWorker (fun _ _ _ => WebhookWorker.noConfusion) hholds
        obtain ⟨row, hrow, rfl, ht, hfailed⟩ := hidle.row v key t hv hheld
        have hmem := Library.mem_updateWhere_of_mem (p := (·.key == (provider, deliveryId)))
          (f := fun row => { row with outcome, processedAt := some s.clock }) hrow
        split at hmem
        · rename_i hkey
          rw [beq_iff_eq] at hkey
          refine ⟨_, hmem, rfl, ht, ?_⟩
          -- `failed` over a lease that runs: it is the worker's own, and that is another worker
          rintro rfl
          have hfind : delivery? s.deliveries (provider, deliveryId) = some row :=
            (delivery?_eq_some h.keys).mpr ⟨hrow, hkey⟩
          simp only [WebhookOp.finishesOwn, hworker, hfind, Option.all_some, Bool.and_eq_true,
            Bool.not_eq_true', Bool.and_eq_false_iff, beq_self_eq_true, Bool.true_eq_false, false_or,
            beq_eq_false_iff_ne, bne_eq_false_iff_eq, decide_eq_false_iff_not] at hown
          obtain ⟨hopen, (hreceived | hsame) | hlate⟩ := hown
          · cases hout : row.outcome with
            | received => exact hreceived hout
            | failed => exact hfailed hout
            | processed => simp [WebhookDelivery.settled, hout] at hopen
            | ignored => simp [WebhookDelivery.settled, hout] at hopen
          · refine hne (h.lease v worker row.key hlease ⟨observedAt, ?_, ?_⟩)
            · rw [hkey]
              exact hworker
            · rw [← hsame, ht]
              exact hheld
          · rw [ht] at hlate
            exact hlate hheld
        · exact ⟨row, hmem, rfl, ht, hfailed⟩
    · exact hidle
  · exact h

/-- A purge drops no row that a worker has under its lease. -/
theorem WebhookInvariant.purge (h : WebhookInvariant s) (tie : WebhookDelivery → Nat) (limit : Int) :
    WebhookInvariant
      { s with deliveries := purgeIntegrationWebhooks tie s.deliveries (s.clock - days 90) limit } where
  keys := h.keys.sublist (purge_sublist tie _ limit)
  checked := fun row hrow => h.checked row ((purge_sublist tie _ limit).subset hrow)
  past := h.past
  row := by
    intro worker key t hworker hheld
    obtain ⟨row, hrow, hkey, ht, hfailed⟩ := h.row worker key t hworker hheld
    refine ⟨row, mem_purge_of_young h.keys hrow ?_, hkey, ht, hfailed⟩
    have hclock : s.clock ≤ t + webhookLease := hheld
    simp only [webhookLease, minutes, days, seconds] at hclock ⊢
    omega
  lease := h.lease

/-- **Every step keeps the invariant** that does not finish another worker's delivery. -/
theorem WebhookInvariant.step (h : WebhookInvariant s) {op : WebhookOp} (hclock : op.monotone s = true)
    (hown : op.finishesOwn s = true) : WebhookInvariant (webhookStep s op) := by
  have hle : s.clock ≤ op.time?.getD s.clock := by
    unfold WebhookOp.monotone at hclock
    cases htime : op.time? with
    | none => exact le_rfl
    | some now => simpa [htime] using hclock
  have htick := h.tick hle
  unfold webhookStep
  cases op with
  | receive worker provider deliveryId eventName now =>
    show WebhookInvariant (if _ then _ else _)
    split
    · refine htick.setWorker worker (fun _ _ _ => WebhookWorker.noConfusion) ?_
      intro p d e t heq
      obtain ⟨_, _, _, rfl⟩ := WebhookWorker.received.inj heq
      exact le_rfl
    · exact htick
  | beginDelivery worker now => exact htick.beginDelivery worker
  | finish worker outcome now => exact WebhookInvariant.finish htick hown
  | die worker =>
    exact htick.setWorker worker (fun _ _ _ => WebhookWorker.noConfusion) fun _ _ _ _ heq =>
      nomatch heq
  | purge tie limit now => exact WebhookInvariant.purge htick tie limit

theorem WebhookInvariant.processedOnce (h : WebhookInvariant s) : ProcessedOnce s where
  lease := h.lease
  duplicate := fun row hrow hsettled _ _ hevent =>
    beginIntegrationWebhook_settled h.keys hrow hsettled (h.checked row hrow) hevent _

/-- **A step keeps what is settled**, if it does not finish over it. -/
theorem keepsSettledDelivery_step (h : WebhookInvariant s) {op : WebhookOp}
    (hown : op.finishesOwn s = true) : KeepsSettledDelivery s op := by
  intro row hrow hsettled
  cases op with
  | receive worker provider deliveryId eventName now =>
    left
    show row ∈ WebhookState.deliveries (if _ then _ else _)
    split
    · exact hrow
    · exact hrow
  | beginDelivery worker now =>
    left
    show row ∈ (WebhookState.beginDelivery _ worker).deliveries
    unfold WebhookState.beginDelivery
    split
    · split
      · rename_i hbegin
        obtain ⟨_, _, havailable, hkept, _⟩ := beginIntegrationWebhook_granted h.keys hbegin
        refine hkept row hrow fun hkey => ?_
        have hfree := havailable row hrow hkey
        rw [not_available_of_settled hsettled] at hfree
        cases hfree
      · exact hrow
    · exact hrow
  | finish worker outcome now =>
    left
    show row ∈ (WebhookState.finish _ worker outcome now).deliveries
    unfold WebhookState.finish
    split
    · rename_i provider deliveryId observedAt hworker
      split
      · rename_i deliveries hfinish
        unfold finishIntegrationWebhook at hfinish
        obtain ⟨_, _, hdeliveries⟩ := Library.bind_eq_ok.mp hfinish
        obtain rfl := Except.ok.inj hdeliveries
        refine Library.mem_updateWhere_of_false hrow (beq_false_of_ne fun hkey => ?_)
        have hfind : delivery? s.deliveries (provider, deliveryId) = some row :=
          (delivery?_eq_some h.keys).mpr ⟨hrow, hkey⟩
        have hworker' : s.workers worker = .processing provider deliveryId observedAt := hworker
        simp [WebhookOp.finishesOwn, hworker', hfind, hsettled] at hown
      · exact hrow
    · exact hrow
  | die worker => exact .inl hrow
  | purge tie limit now => exact .inr ⟨tie, limit, now, rfl⟩

end

/-! ## Runs -/

/-- **Every delivery is processed once in every run** in which the clock does not go back, and no worker
writes an outcome over a settled one or fails a delivery that another worker has under its lease. -/
theorem webhooksProcessedOnce_run {clock : Int} {ops : List WebhookOp}
    (hops : Guarded webhookStep (fun s op => op.monotone s = true ∧ op.finishesOwn s = true) { clock }
      ops) : WebhooksProcessedOnce clock ops := by
  have hinv : ∀ {before}, Guarded webhookStep
      (fun s op => op.monotone s = true ∧ op.finishesOwn s = true) { clock } before →
      WebhookInvariant (run webhookStep { clock } before) :=
    fun hbefore => guarded_invariant WebhookInvariant (fun _ _ h hg => h.step hg.1 hg.2)
      (webhookInvariant_start clock) hbefore
  constructor
  · rintro before after rfl
    exact (hinv (guarded_append.mp hops).1).processedOnce
  · rintro before op after rfl
    obtain ⟨hbefore, hstep, _⟩ := guarded_append.mp hops
    exact keepsSettledDelivery_step (hinv hbefore) hstep.2

/-- A worker is late, another one takes the delivery over and processes it, and the first one dies. -/
def takenOver : List WebhookOp :=
  [.receive 1 "github" "d-1" "issues" 0, .beginDelivery 1 0,
   .receive 2 "github" "d-1" "issues" (minutes 11), .beginDelivery 2 (minutes 11),
   .finish 2 .processed (minutes 12), .die 1]

theorem webhooksProcessedOnce_run_takenOver : WebhooksProcessedOnce 0 takenOver :=
  webhooksProcessedOnce_run (by decide +kernel)

/-- **A late worker undoes what another one has settled.** It fails the delivery that was taken over and
processed, and the next worker begins it again. -/
theorem webhooksProcessedOnce_late :
    ¬ ∀ (clock : Int) (ops : List WebhookOp),
      Guarded webhookStep (fun s op => op.monotone s = true) { clock } ops →
        WebhooksProcessedOnce clock ops := by
  intro h
  have hlate := (h 0 [.receive 1 "github" "d-1" "issues" 0, .beginDelivery 1 0,
   .receive 2 "github" "d-1" "issues" (minutes 11), .beginDelivery 2 (minutes 11),
   .finish 2 .processed (minutes 12), .finish 1 .failed (minutes 13)] (by decide +kernel)).2
    [.receive 1 "github" "d-1" "issues" 0, .beginDelivery 1 0,
     .receive 2 "github" "d-1" "issues" (minutes 11), .beginDelivery 2 (minutes 11),
     .finish 2 .processed (minutes 12)] (.finish 1 .failed (minutes 13)) [] rfl
  rcases hlate ⟨"github", "d-1", "issues", minutes 11, some (minutes 12), .processed⟩
    (by decide +kernel) rfl with hkept | ⟨_, _, _, hop⟩
  · revert hkept
    decide +kernel
  · cases hop

end Dayfinch
