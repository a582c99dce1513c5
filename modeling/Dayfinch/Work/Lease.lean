/-
# Dayfinch.Work.Lease -- when is every credited instant an observed one

Time is credited on the strength of receipts: an instant of a segment is *observed* when a receipt of
the segment's device falls on it, or when it lies between two neighbouring receipts that are no
further apart than their lease. A dead stretch, longer than the lease, must not be credited.

The cut at a lapsed lease looks at the device's own previous receipt. It is not made when another
device takes the session over, and not when the receipt that happens to be selected, among several of
one instant, is not an active one. `leaseHolds` is the condition that neither happens; under it every
instant of every closed segment is observed, over runs of heartbeats with event ids.
-/
import Dayfinch.Work.StoreInvariant
import Dayfinch.Work.SyncEffect

namespace Dayfinch

open Library (run Guarded guarded_invariant latestBy latestBy_mem le_of_latestBy)

/-! ## Observed instants -/

/-- `p` is the latest receipt of device `d` when `n` is accepted. -/
def Neighbours (db : Database) (d : Nat) (p n : AgentStateEvent) : Prop :=
  ∃ pre post, db.agentStateEvents = pre ++ n :: post ∧ p ∈ pre ∧ p.deviceId = d ∧
    ∀ q ∈ pre, q.deviceId = d → q.observedAt ≤ p.observedAt

/-- The instant `x` of a segment of device `d` that ends at `e` is observed: a receipt of `d` falls on
it, or it lies within the lease between two neighbouring receipts, the second of them of `d` as well
or the event that took the work over at `e`. -/
inductive ObservedAt (db : Database) (d : Nat) (e x : Int) : Prop
  | on (q : AgentStateEvent) (hq : q ∈ db.agentStateEvents) (hd : q.deviceId = d)
      (hx : q.observedAt = x) : ObservedAt db d e x
  | between (p n : AgentStateEvent) (hpn : Neighbours db d p n) (hp : p.observedAt ≤ x)
      (hn : x ≤ n.observedAt) (hnext : n.deviceId = d ∨ n.observedAt = e)
      (hlease : x ≤ p.observedAt +
        seconds (leaseSeconds p.heartbeatIntervalSeconds n.heartbeatIntervalSeconds)) :
      ObservedAt db d e x

/-- Every instant of every closed segment, its end included, is observed. -/
def WithinLease (db : Database) : Prop :=
  ∀ g ∈ db.segments, ∀ ws ∈ db.workSessions, ws.id = g.sessionId → ∀ e, g.endedAt = some e →
    ∀ x, g.startedAt ≤ x → x ≤ e → ObservedAt db ws.deviceId e x

/-- Every closed segment ends within the lease after the latest receipt of its device at or before the
end, the lease being taken between a receipt `p` of the device and its neighbour. -/
def EndsWithinLease (db : Database) : Prop :=
  ∀ g ∈ db.segments, ∀ ws ∈ db.workSessions, ws.id = g.sessionId → ∀ e, g.endedAt = some e →
    ∃ p n, p ∈ db.agentStateEvents ∧ p.deviceId = ws.deviceId ∧ p.observedAt ≤ e ∧
      (n = p ∨ Neighbours db ws.deviceId p n) ∧
      ∀ q ∈ db.agentStateEvents, q.deviceId = ws.deviceId → q.observedAt ≤ e →
        (∀ q' ∈ db.agentStateEvents, q'.deviceId = ws.deviceId → q'.observedAt ≤ e →
          q'.observedAt ≤ q.observedAt) →
        e ≤ q.observedAt +
          seconds (leaseSeconds p.heartbeatIntervalSeconds n.heartbeatIntervalSeconds)

theorem Neighbours.mem {db : Database} {d : Nat} {p n : AgentStateEvent} (h : Neighbours db d p n) :
    n ∈ db.agentStateEvents := by
  obtain ⟨pre, post, heq, _⟩ := h
  rw [heq]
  exact List.mem_append_right _ List.mem_cons_self

/-- Receipts that are added do not make an observed instant unobserved. -/
theorem ObservedAt.append {db db' : Database} {d : Nat} {e x : Int} (h : ObservedAt db d e x)
    {more : List AgentStateEvent}
    (hevents : db'.agentStateEvents = db.agentStateEvents ++ more) : ObservedAt db' d e x := by
  cases h with
  | on q hq hd hx => exact .on q (hevents ▸ List.mem_append_left _ hq) hd hx
  | between p n hpn hp hn hnext hlease =>
    obtain ⟨pre, post, heq, hmem, hd, hlatest⟩ := hpn
    refine .between p n ⟨pre, post ++ more, ?_, hmem, hd, hlatest⟩ hp hn hnext hlease
    rw [hevents, heq, List.append_assoc, List.cons_append]

/-- **What being observed says about the end of a segment**: it lies within the lease after the
latest receipt of the device at or before it. -/
theorem ObservedAt.end_le {db : Database} {d : Nat} {e : Int} (h : ObservedAt db d e e) :
    ∃ p n, p ∈ db.agentStateEvents ∧ p.deviceId = d ∧ p.observedAt ≤ e ∧
      (n = p ∨ Neighbours db d p n) ∧
      ∀ q ∈ db.agentStateEvents, q.deviceId = d → q.observedAt ≤ e →
        (∀ q' ∈ db.agentStateEvents, q'.deviceId = d → q'.observedAt ≤ e →
          q'.observedAt ≤ q.observedAt) →
        e ≤ q.observedAt +
          seconds (leaseSeconds p.heartbeatIntervalSeconds n.heartbeatIntervalSeconds) := by
  cases h with
  | on p hp hd hx =>
    refine ⟨p, p, hp, hd, hx.le, .inl rfl, fun q hq hqd hqe hlatest => ?_⟩
    have hle := hlatest p hp hd hx.le
    have hpos : 0 ≤ seconds
        (leaseSeconds p.heartbeatIntervalSeconds p.heartbeatIntervalSeconds) := by
      unfold seconds leaseSeconds
      omega
    omega
  | between p n hpn hp hn hnext hlease =>
    obtain ⟨pre, post, heq, hmem, hd, hpre⟩ := hpn
    have hpmem : p ∈ db.agentStateEvents := heq ▸ List.mem_append_left _ hmem
    refine ⟨p, n, hpmem, hd, hp, .inr ⟨pre, post, heq, hmem, hd, hpre⟩, fun q _ _ _ hlatest => ?_⟩
    have hle := hlatest p hpmem hd hp
    omega

/-! ## The condition -/

/-- The receipts of a device. -/
def Database.receiptsOf (db : Database) (deviceId : Nat) : List AgentStateEvent :=
  db.agentStateEvents.filter (·.deviceId == deviceId)

/-- A heartbeat that takes over an active session comes within the lease of the last receipt of the
device it takes it from. -/
def takesOverInLease (observed : Int) (db : Database) (call : SyncCall) (adm : Admission) : Bool :=
  adm.status == .stopped || (otherSession db call).all fun other =>
    other.status != .active || (db.receiptsOf other.deviceId).any fun p =>
      (db.receiptsOf other.deviceId).all (·.observedAt ≤ p.observedAt) &&
        observed ≤ p.observedAt +
          seconds (leaseSeconds p.heartbeatIntervalSeconds call.heartbeatIntervalSeconds)

/-- While the device's session is active, a lapse of the lease is recognised: the selected previous
receipt is an active one. -/
def lapseRecognised (previous : Option AgentStateEvent) (observed : Int) (db : Database)
    (call : SyncCall) : Bool :=
  (deviceSession db call).all fun session =>
    session.status != .active || previous.all fun p =>
      p.status == .active || !leaseExpired p call.heartbeatIntervalSeconds observed

/-- **The lease holds across a heartbeat**: neither a takeover nor an unrecognised lapse credits a
dead stretch. -/
def leaseHolds (db : Database) (op : WorkOp) : Bool :=
  heartbeatMeets
    (fun previous observed db call adm =>
      takesOverInLease observed db call adm && lapseRecognised previous observed db call) db op

/-- A heartbeat with an event id. -/
def WorkOp.isHeartbeat : WorkOp → Bool
  | .sync _ _ call => call.eventId.isSome
  | _ => false

/-! ## The invariant of open segments -/

/-- What has been observed of an open segment: its device has a receipt at or after its start, and
every instant from the start up to any receipt of the device is observed by that device. -/
structure OpenObserved (db : Database) (d : Nat) (startedAt : Int) : Prop where
  begun : ∃ q ∈ db.agentStateEvents, q.deviceId = d ∧ startedAt ≤ q.observedAt
  observed : ∀ q ∈ db.agentStateEvents, q.deviceId = d → ∀ x, startedAt ≤ x → x ≤ q.observedAt →
    ∀ e, ObservedAt db d e x

/-- Every open segment is observed so far, and every closed one throughout. -/
structure LeaseInvariant (db : Database) : Prop where
  opened : ∀ g ∈ db.segments, ∀ ws ∈ db.workSessions, ws.id = g.sessionId → g.endedAt = none →
    OpenObserved db ws.deviceId g.startedAt
  closed : WithinLease db
  forward : ∀ g ∈ db.segments, ∀ e, g.endedAt = some e → g.startedAt ≤ e

/-- Where every instant of a segment is observed, its end is. -/
theorem LeaseInvariant.endsWithinLease {db : Database} (h : LeaseInvariant db) :
    EndsWithinLease db := by
  intro g hg ws hws hid e he
  exact (h.closed g hg ws hws hid e he e (h.forward g hg e he) le_rfl).end_le

section

variable {db db' : Database} {d : Nat} {startedAt : Int}

/-- Receipts of other devices leave an open segment observed. -/
theorem OpenObserved.append_other (h : OpenObserved db d startedAt) {more : List AgentStateEvent}
    (hevents : db'.agentStateEvents = db.agentStateEvents ++ more)
    (hother : ∀ n ∈ more, n.deviceId ≠ d) : OpenObserved db' d startedAt := by
  constructor
  · obtain ⟨q, hq, hd, hs⟩ := h.begun
    exact ⟨q, hevents ▸ List.mem_append_left _ hq, hd, hs⟩
  · intro q hq hd x hsx hxq e
    rw [hevents] at hq
    rcases List.mem_append.mp hq with hold | hnew
    · exact (h.observed q hold hd x hsx hxq e).append hevents
    · exact absurd hd (hother q hnew)

/-- The latest receipt `p` of the device and the next event `n` observe everything between them that
is within their lease. -/
theorem observed_between {p n : AgentStateEvent} (hevents : db'.agentStateEvents = db.agentStateEvents ++ [n])
    (hp : p ∈ db.agentStateEvents) (hd : p.deviceId = d)
    (hlatest : ∀ q ∈ db.agentStateEvents, q.deviceId = d → q.observedAt ≤ p.observedAt) {x e : Int}
    (hpx : p.observedAt ≤ x) (hxn : x ≤ n.observedAt) (hnext : n.deviceId = d ∨ n.observedAt = e)
    (hlease : x ≤ p.observedAt +
      seconds (leaseSeconds p.heartbeatIntervalSeconds n.heartbeatIntervalSeconds)) :
    ObservedAt db' d e x :=
  .between p n ⟨db.agentStateEvents, [], hevents, hp, hd, hlatest⟩ hpx hxn hnext hlease

/-- **One more receipt within the lease.** An instant of an open segment up to `limit` is observed when
`limit` is within the lease between the device's latest receipt and the next event. -/
theorem OpenObserved.upTo (h : OpenObserved db d startedAt) {p n : AgentStateEvent}
    (hevents : db'.agentStateEvents = db.agentStateEvents ++ [n]) (hp : p ∈ db.agentStateEvents)
    (hd : p.deviceId = d)
    (hlatest : ∀ q ∈ db.agentStateEvents, q.deviceId = d → q.observedAt ≤ p.observedAt)
    (limit : Int) (hlimit : limit ≤ n.observedAt)
    (hlease : limit ≤ p.observedAt +
      seconds (leaseSeconds p.heartbeatIntervalSeconds n.heartbeatIntervalSeconds))
    {e : Int} (hnext : n.deviceId = d ∨ n.observedAt = e) {x : Int} (hsx : startedAt ≤ x)
    (hx : x ≤ max startedAt limit) : ObservedAt db' d e x := by
  by_cases hxp : x ≤ p.observedAt
  · exact (h.observed p hp hd x hsx hxp e).append hevents
  · have hpx : p.observedAt < x := not_le.mp hxp
    -- the start is not after the latest receipt, so `x` is bounded by `limit`
    have hxlimit : x ≤ limit := by
      obtain ⟨q, hq, hqd, hqs⟩ := h.begun
      have hqp := hlatest q hq hqd
      rcases le_max_iff.mp hx with hxs | hxl
      · omega
      · exact hxl
    exact observed_between hevents hp hd hlatest hpx.le (hxlimit.trans hlimit) hnext
      (hxlimit.trans hlease)

end

/-! ## One heartbeat -/

section

variable {now : Int} {previous : Option AgentStateEvent} {observed : Int} {db db' : Database}
  {call : SyncCall} {adm : Admission}

/-- What the transaction knows of the device's receipts when the event has an id. -/
structure PreviousReceipt (previous : Option AgentStateEvent) (observed : Int) (db : Database)
    (call : SyncCall) : Prop where
  latest : ∀ p, previous = some p → p ∈ db.agentStateEvents ∧ p.deviceId = call.device.id ∧
    ∀ q ∈ db.agentStateEvents, q.deviceId = call.device.id → q.observedAt ≤ p.observedAt
  exists_of_mem : ∀ q ∈ db.agentStateEvents, q.deviceId = call.device.id → ∃ p, previous = some p
  clamped : ∀ q ∈ db.agentStateEvents, q.deviceId = call.device.id → q.observedAt ≤ observed

theorem previousReceipt_spec (tie : AgentStateEvent → Nat) (db : Database) {call : SyncCall}
    (hid : call.eventId.isSome) (at0 : Int) :
    PreviousReceipt (previousReceipt tie db call)
      (clampToPrevious (previousReceipt tie db call) at0) db call := by
  obtain ⟨eventId, heq⟩ := Option.isSome_iff_exists.mp hid
  have hprev : previousReceipt tie db call = latestBy (·.observedAt) tie
      (db.agentStateEvents.filter (·.deviceId == call.device.id)) := by
    rw [previousReceipt, heq]
    rfl
  have hfilter : ∀ q ∈ db.agentStateEvents, q.deviceId = call.device.id →
      q ∈ db.agentStateEvents.filter (·.deviceId == call.device.id) :=
    fun q hq hd => List.mem_filter.mpr ⟨hq, by simpa using hd⟩
  have hlatest : ∀ p, previousReceipt tie db call = some p →
      p ∈ db.agentStateEvents ∧ p.deviceId = call.device.id ∧
      ∀ q ∈ db.agentStateEvents, q.deviceId = call.device.id → q.observedAt ≤ p.observedAt := by
    intro p hp
    rw [hprev] at hp
    have hmem := List.mem_filter.mp (latestBy_mem hp)
    exact ⟨hmem.1, by simpa using hmem.2, fun q hq hd => le_of_latestBy hp (hfilter q hq hd)⟩
  have hexists : ∀ q ∈ db.agentStateEvents, q.deviceId = call.device.id →
      ∃ p, previousReceipt tie db call = some p := by
    intro q hq hd
    cases hp : previousReceipt tie db call with
    | some p => exact ⟨p, rfl⟩
    | none =>
      rw [hprev] at hp
      have hnone := Library.latestBy_filter_eq_none.mp hp q hq
      simp [hd] at hnone
  refine ⟨hlatest, hexists, fun q hq hd => ?_⟩
  obtain ⟨p, hp⟩ := hexists q hq hd
  have hle := (hlatest p hp).2.2 q hq hd
  rw [hp]
  exact hle.trans (le_max_right _ _)

/-- While the session is kept, the event comes within the lease of the previous receipt. -/
theorem within_of_not_lapsed {p : AgentStateEvent} {session : WorkSession}
    (hrecognised : lapseRecognised previous observed db call = true)
    (hsession : deviceSession db call = some session) (hactive : session.status = .active)
    (hp : previous = some p) (hlapsed : ¬ Lapsed previous call.heartbeatIntervalSeconds observed) :
    observed ≤ p.observedAt +
      seconds (leaseSeconds p.heartbeatIntervalSeconds call.heartbeatIntervalSeconds) := by
  rw [lapseRecognised, hsession, hp] at hrecognised
  simp only [Option.all_some, hactive, bne_self_eq_false, Bool.false_or, Bool.or_eq_true,
    beq_iff_eq, Bool.not_eq_true'] at hrecognised
  have hnot : ¬ leaseExpired p call.heartbeatIntervalSeconds observed = true := by
    rcases hrecognised with hst | hexp
    · exact fun hexp => hlapsed ⟨p, hp, hst, hexp⟩
    · simp [hexp]
  have hle : ¬ seconds (leaseSeconds p.heartbeatIntervalSeconds call.heartbeatIntervalSeconds) <
      observed - p.observedAt := fun hlt => hnot (decide_eq_true hlt)
  omega

/-- The takeover comes within the lease of a latest receipt of the other device. -/
theorem within_of_takesOver {other : WorkSession}
    (htakes : takesOverInLease observed db call adm = true) (hstatus : adm.status ≠ .stopped)
    (hother : otherSession db call = some other) (hactive : other.status = .active) :
    ∃ p ∈ db.agentStateEvents, p.deviceId = other.deviceId ∧
      (∀ q ∈ db.agentStateEvents, q.deviceId = other.deviceId → q.observedAt ≤ p.observedAt) ∧
      observed ≤ p.observedAt +
        seconds (leaseSeconds p.heartbeatIntervalSeconds call.heartbeatIntervalSeconds) := by
  rw [takesOverInLease, hother] at htakes
  simp only [Bool.or_eq_true, beq_iff_eq, hstatus, false_or, Option.all_some, hactive,
    bne_self_eq_false, Bool.false_eq_true, List.any_eq_true, Bool.and_eq_true, List.all_eq_true,
    decide_eq_true_eq] at htakes
  obtain ⟨p, hp, hlatest, hle⟩ := htakes
  obtain ⟨hmem, hd⟩ := List.mem_filter.mp hp
  refine ⟨p, hmem, by simpa using hd, fun q hq hqd => ?_, hle⟩
  exact hlatest q (List.mem_filter.mpr ⟨hq, by simpa using hqd⟩)

/-- **An accepted heartbeat keeps every instant observed** when the lease holds across it. -/
theorem Accepted.leaseInvariant (hacc : Accepted now previous observed db call adm db')
    (hinv : StoreInvariant db) (hinv' : StoreInvariant db') (h : LeaseInvariant db)
    (hid : call.eventId.isSome) (hprev : PreviousReceipt previous observed db call)
    (htakes : takesOverInLease observed db call adm = true)
    (hrecognised : lapseRecognised previous observed db call = true) : LeaseInvariant db' := by
  obtain ⟨hidle, sessionId, hreceipts⟩ := hacc.receipts
  obtain ⟨eventId, heq⟩ := Option.isSome_iff_exists.mp hid
  -- the one new receipt
  obtain ⟨n, hn⟩ : ∃ n, n = newReceipt now call adm observed sessionId eventId := ⟨_, rfl⟩
  have hevents : db'.agentStateEvents = db.agentStateEvents ++ [n] := by
    rw [hreceipts, heq, hn]
    rfl
  have hnd : n.deviceId = call.device.id := by rw [hn]; rfl
  have hnobs : n.observedAt = observed := by rw [hn]; rfl
  have hnhb : n.heartbeatIntervalSeconds = call.heartbeatIntervalSeconds := by rw [hn]; rfl
  have hnmem : n ∈ db'.agentStateEvents := hevents ▸ List.mem_append_right _ (List.mem_singleton_self n)
  -- An open segment of the call's device, when its session does not lapse, up to `limit`.
  have hown : ∀ g0 ∈ db.segments, ∀ ws0 ∈ db.workSessions, ws0.id = g0.sessionId →
      g0.endedAt = none → deviceSession db call = some ws0 →
      ¬ Lapsed previous call.heartbeatIntervalSeconds observed →
      ∀ limit, limit ≤ observed → ∀ e x, g0.startedAt ≤ x → x ≤ max g0.startedAt limit →
        ObservedAt db' call.device.id e x := by
    intro g0 hg0 ws0 hws0 hid0 hopen0 hsession hlapsed limit hlimit e x hsx hx
    have hdev := (deviceSession_mem hsession).2.2
    have hobs := h.opened g0 hg0 ws0 hws0 hid0 hopen0
    rw [hdev] at hobs
    obtain ⟨q, hq, hqd, _⟩ := hobs.begun
    obtain ⟨p, hp⟩ := hprev.exists_of_mem q hq hqd
    obtain ⟨hpmem, hpd, hplatest⟩ := hprev.latest p hp
    have hwithin := within_of_not_lapsed hrecognised hsession
      (hinv.active_of_open hws0 hg0 hid0 hopen0) hp hlapsed
    refine hobs.upTo hevents hpmem hpd hplatest limit ?_ ?_ (.inl hnd) hsx hx
    · rw [hnobs]
      exact hlimit
    · rw [hnhb]
      exact hlimit.trans hwithin
  have hstarted : ∀ startedAt, startedAt = observed → OpenObserved db' call.device.id startedAt := by
    intro startedAt hstart
    rw [hstart]
    refine ⟨⟨n, hnmem, hnd, hnobs.ge⟩, fun q hq hqd x hsx hxq e => ?_⟩
    have hqle : q.observedAt ≤ observed := by
      rw [hevents] at hq
      rcases List.mem_append.mp hq with hold | hnew
      · exact hprev.clamped q hold hqd
      · rw [List.mem_singleton.mp hnew, hnobs]
    exact .on n hnmem hnd (hnobs.trans (le_antisymm hsx (hxq.trans hqle)))
  constructor
  · intro g hg ws hws hwid hopen
    cases hacc.origin hinv hinv' hg hws hwid with
    | opened _ hstart _ hdevice _ _ =>
      rw [hdevice]
      exact hstarted _ hstart
    | resumed _ hstart _ session hkept _ _ hdevice =>
      rw [hdevice, (deviceSession_mem hkept.session_eq).2.2]
      exact hstarted _ hstart
    | kept g0 hg0 ws0 hws0 hid0 _ hdevice hended hlapsed =>
      cases hended with
      | ended e _ _ => cases hopen
      | same =>
        have hobs := h.opened g hg0 ws0 hws0 hid0 hopen
        rw [← hdevice]
        by_cases hdev : ws0.deviceId = call.device.id
        · have hlive : ws0.live := by simp [hinv.active_of_open hws0 hg0 hid0 hopen]
          have hsession := hinv.deviceSession_eq hws0 hlive hdev
          have hall := hown g hg0 ws0 hws0 hid0 hopen hsession (hlapsed hopen hsession) observed
            le_rfl
          obtain ⟨q, hq, hqd, hqs⟩ := hobs.begun
          rw [hdev] at hqd ⊢
          have hqn := hprev.clamped q hq hqd
          refine ⟨⟨n, hnmem, hnd, by omega⟩, fun q hq hqd x hsx hxq e => ?_⟩
          refine hall e x hsx ?_
          rw [hevents] at hq
          rcases List.mem_append.mp hq with hold | hnew
          · exact le_max_of_le_right (hxq.trans (hprev.clamped q hold hqd))
          · rw [List.mem_singleton.mp hnew, hnobs] at hxq
            exact le_max_of_le_right hxq
        · refine hobs.append_other hevents fun m hm => ?_
          rw [List.mem_singleton.mp hm, hnd]
          exact Ne.symm hdev
  · intro g hg ws hws hwid e he x hsx hxe
    cases hacc.origin hinv hinv' hg hws hwid with
    | opened _ _ hopen => rw [hopen] at he; cases he
    | resumed _ _ hopen => rw [hopen] at he; cases he
    | kept g0 hg0 ws0 hws0 hid0 _ hdevice hended _ =>
      rw [← hdevice]
      cases hended with
      | same => exact (h.closed g hg0 ws0 hws0 hid0 e he x hsx hxe).append hevents
      | ended e' hopen0 hend =>
        cases he
        have hactive := hinv.active_of_open hws0 hg0 hid0 hopen0
        cases hend with
        | takenOver other hother hsid hstatus _ _ =>
          have hother' := otherSession_mem hother
          obtain rfl : ws0 = other := hinv.sessionKeys.eq hws0 hother'.1 (hid0.trans hsid)
          obtain ⟨p, hp, hpd, hplatest, hwithin⟩ :=
            within_of_takesOver htakes hstatus hother hactive
          have hobs := h.opened g0 hg0 ws0 hws0 hid0 hopen0
          by_cases hle : g0.startedAt ≤ observed
          · refine hobs.upTo hevents hp hpd hplatest observed hnobs.ge ?_
              (.inr (by rw [hnobs, max_eq_right hle])) hsx hxe
            rw [hnhb]
            exact hwithin
          · -- the segment begins after the takeover: it is empty, and its start is observed
            obtain ⟨q, hq, hqd, hqs⟩ := hobs.begun
            have hx : x ≤ g0.startedAt := by
              rw [max_eq_left (not_le.mp hle).le] at hxe
              exact hxe
            exact (hobs.observed q hq hqd x hsx (hx.trans hqs) _).append hevents
        | lapsed session hsession hsid p hp _ hexpired =>
          have hsession' := deviceSession_mem hsession
          obtain rfl : ws0 = session := hinv.sessionKeys.eq hws0 hsession'.1 (hid0.trans hsid)
          obtain ⟨hpmem, hpd, hplatest⟩ := hprev.latest p hp
          have hobs := h.opened g0 hg0 ws0 hws0 hid0 hopen0
          rw [hsession'.2.2] at hobs ⊢
          refine hobs.upTo hevents hpmem hpd hplatest (leaseEnd p) ?_ ?_ (.inl hnd)
            hsx hxe
          · rw [hnobs]
            exact leaseEnd_le hexpired
          · unfold leaseEnd leaseSeconds seconds
            omega
        | ended session hsession hsid hlapsed _ =>
          have hsession' := deviceSession_mem hsession
          obtain rfl : ws0 = session := hinv.sessionKeys.eq hws0 hsession'.1 (hid0.trans hsid)
          rw [hsession'.2.2]
          exact hown g0 hg0 ws0 hws0 hid0 hopen0 hsession hlapsed observed le_rfl _ x hsx hxe
        | paused session hkept hsid _ =>
          have hsession' := deviceSession_mem hkept.session_eq
          obtain rfl : ws0 = session := hinv.sessionKeys.eq hws0 hsession'.1 (hid0.trans hsid)
          rw [hsession'.2.2]
          refine hown g0 hg0 ws0 hws0 hid0 hopen0 hkept.session_eq hkept.not_lapsed
            (observed - seconds call.idleSeconds) ?_ _ x hsx hxe
          have hnonneg := hidle hid
          unfold seconds
          omega
  · intro g hg e he
    obtain ⟨ws, hws, hwid⟩ := hinv'.segmentSession g hg
    cases hacc.origin hinv hinv' hg hws hwid with
    | opened _ _ hopen => rw [hopen] at he; cases he
    | resumed _ _ hopen => rw [hopen] at he; cases he
    | kept g0 hg0 _ _ _ _ _ hended _ =>
      cases hended with
      | same => exact h.forward g hg0 e he
      | ended e' _ hend =>
        cases he
        cases hend <;> exact le_max_left _ _

end

/-! ## Steps and runs -/

theorem step_leaseInvariant {db : Database} {op : WorkOp} (hop : op.isHeartbeat = true)
    (hinv : StoreInvariant db) (h : LeaseInvariant db) (hguard : leaseHolds db op = true) :
    LeaseInvariant (step db op) := by
  cases op with
  | sync tie now call =>
    rcases step_sync db tie now call with hsame | ⟨adm, _, _, hacc, hmeets⟩
    · rw [hsame]
      exact h
    · have hmet := hmeets _ hguard
      rw [Bool.and_eq_true] at hmet
      exact hacc.leaseInvariant hinv (hinv.step _) h hop (previousReceipt_spec tie db hop _)
        hmet.1 hmet.2
  | _ => cases hop

theorem leaseInvariant_withoutWork (db : Database) : LeaseInvariant db.withoutWork := by
  constructor <;> intro g hg <;> cases hg

/-- **Unobserved time is not credited.** In every run of heartbeats with event ids across which the
lease holds, every instant of every closed segment is observed, and the segment ends within the lease
after the latest receipt of its device. -/
theorem closedSegments_withinLease (db : Database) (ops : List WorkOp)
    (hheartbeats : ∀ op ∈ ops, op.isHeartbeat = true)
    (hops : Guarded step (fun db op => leaseHolds db op = true) db.withoutWork ops) :
    WithinLease (run step db.withoutWork ops) ∧ EndsWithinLease (run step db.withoutWork ops) := by
  have h := guarded_invariant (fun db => StoreInvariant db ∧ LeaseInvariant db)
    (fun db op h hguard => ⟨h.1.step op, step_leaseInvariant hguard.1 h.1 h.2 hguard.2⟩)
    ⟨storeInvariant_withoutWork db, leaseInvariant_withoutWork db⟩
    (hops.and_of_forall hheartbeats)
  exact ⟨h.2.closed, h.2.endsWithinLease⟩

/-- The phone takes over from the laptop two minutes after the laptop's last heartbeat. -/
def promptTakeover : List WorkOp :=
  [deliver (minutes 600) (pressed laptop 1 .active (minutes 600)),
   deliver (minutes 601) (pressed laptop 2 .active (minutes 601)),
   deliver (minutes 603) (pressed phone 3 .active (minutes 603))]

theorem closedSegments_withinLease_office :
    WithinLease (run step office.withoutWork promptTakeover) ∧
      EndsWithinLease (run step office.withoutWork promptTakeover) :=
  closedSegments_withinLease office promptTakeover (by decide) (by decide +kernel)

/-! ## A dead stretch that is credited -/

/-- The laptop dies at ten; at two in the afternoon the user presses Start on the phone. -/
def lateTakeover : List WorkOp :=
  [deliver (minutes 600) (pressed laptop 1 .active (minutes 600)),
   deliver (minutes 840) (pressed phone 2 .active (minutes 840))]

/-- A takeover ends the other device's segment at its own instant, however long that device has been
silent. -/
theorem deadStretch_credited :
    ¬ ∀ (db : Database) (ops : List WorkOp), (∀ op ∈ ops, op.isHeartbeat = true) →
      EndsWithinLease (run step db.withoutWork ops) := by
  intro h
  have hends := h office lateTakeover (by decide)
  have hrows : ∃ g ∈ (run step office.withoutWork lateTakeover).segments,
      ∃ ws ∈ (run step office.withoutWork lateTakeover).workSessions, ws.id = g.sessionId ∧
        g.endedAt = some (minutes 840) ∧ ws.deviceId = 1 := by decide +kernel
  have hlatest : ∃ q ∈ (run step office.withoutWork lateTakeover).agentStateEvents,
      q.deviceId = 1 ∧ q.observedAt ≤ minutes 600 ∧
        ∀ q' ∈ (run step office.withoutWork lateTakeover).agentStateEvents, q'.deviceId = 1 →
          q'.observedAt ≤ q.observedAt := by decide +kernel
  have hleases : ∀ p ∈ (run step office.withoutWork lateTakeover).agentStateEvents,
      ∀ n ∈ (run step office.withoutWork lateTakeover).agentStateEvents,
        minutes 600 + seconds (leaseSeconds p.heartbeatIntervalSeconds n.heartbeatIntervalSeconds) <
          minutes 840 := by decide +kernel
  obtain ⟨g, hg, ws, hws, hid, he, hdevice⟩ := hrows
  obtain ⟨q, hq, hqd, hqobs, hqlatest⟩ := hlatest
  obtain ⟨p, n, hp, _, _, hn, hbound⟩ := hends g hg ws hws hid _ he
  have hnmem : n ∈ (run step office.withoutWork lateTakeover).agentStateEvents := by
    rcases hn with rfl | hn
    · exact hp
    · exact hn.mem
  have hle := hbound q hq (hqd.trans hdevice.symm)
    (hqobs.trans (by decide)) (fun q' hq' hd' _ => hqlatest q' hq' (hd'.trans hdevice))
  have hlt := hleases p hp n hnmem
  omega

end Dayfinch
