/-
# Dayfinch.Payroll.Windows -- the paid windows of successive payroll runs

`create_payroll` refuses a period whose dates overlap those of a stored payment of the member. What it
pays is not dates but the time between two local midnights, in the zone that the organization has when
the run is made, and the stored row keeps the dates without the zone. So disjoint dates mean disjoint
windows only while the zones of the two runs put the midnights between the periods in order.

`PayrollRun` is the stored row with the zone of its run beside it, and `midnightsInOrder` the condition
on a run. Users, settings, timesheets and every kind of time may change in any way between two runs.
-/
import Dayfinch.Library.Run
import Dayfinch.Payroll.Overtime

namespace Dayfinch

open Library (run Guarded guarded_invariant bind_eq_ok)

/-! ## The transaction -/

/-- The payroll columns of `users`; the rate is in cents. -/
structure PayrollMember where
  userId : Nat
  payRate : Int
  requireTimesheetApproval : Bool
  deriving DecidableEq, Repr

/-- A row of `payroll_payments` as `create_payroll` inserts it, and the zone of the run, which is not a
column. -/
structure PayrollRun where
  id : Nat
  userId : Nat
  periodStart : Int
  periodEnd : Int
  regularMinutes : Int
  overtimeMinutes : Int
  payRateSnapshot : Int
  currency : String
  sourceTimesheetId : Option Nat
  createdAt : Int
  zone : ZoneInfo

/-- What the runs read and write. The zone is `none` while the setting names no zone. -/
structure PayrollState where
  db : Database
  members : List PayrollMember
  settings : PayrollSettings
  zone : Option ZoneInfo
  clock : Int
  payments : List PayrollRun
  nextId : Nat

/-- `daterange(period_start, period_end, '[]') && daterange(first, last, '[]')`. -/
def PayrollRun.meets (p : PayrollRun) (first last : Int) : Bool :=
  p.periodStart ≤ last && first ≤ p.periodEnd

/-- `SELECT pay_rate,require_timesheet_approval,enabled FROM users`, of an enabled user. -/
def PayrollState.activeMember (s : PayrollState) (userId : Nat) : Option PayrollMember :=
  if (s.db.getUserAny userId).any (·.enabled) then s.members.find? (·.userId == userId) else none

/-- The approved timesheet of exactly this period. -/
def PayrollState.matchingTimesheet (s : PayrollState) (userId : Nat) (periodStart periodEnd : Int) :
    Option Nat :=
  (s.db.timesheets.find? fun ts => ts.userId == userId && ts.periodStart == periodStart &&
    ts.periodEnd == periodEnd && ts.status == .approved).map (·.id)

/-- `create_payroll`. A currency that is not a three-letter code is `none`; the gross amount is left
out. -/
def createPayroll (s : PayrollState) (userId : Nat) (periodStart periodEnd : Int)
    (currency : Option String) : Except Error PayrollState := do
  raiseIf (periodEnd < periodStart) "Payroll period is invalid"
  raiseIf (31 < periodEnd - periodStart) "A payroll period cannot exceed 32 days"
  match currency with
  | none => .error (.valueError "Payroll currency must be a three-letter code")
  | some currency =>
    match s.activeMember userId with
    | none => .error (.valueError "Active member not found")
    | some member => do
      raiseIf (member.payRate ≤ 0) "Set a positive member pay rate before payroll"
      raiseIf (s.payments.any (fun p => p.userId == userId && p.meets periodStart periodEnd) = true)
        "An overlapping payroll run already exists"
      let sourceTimesheetId :=
        if member.requireTimesheetApproval then s.matchingTimesheet userId periodStart periodEnd
        else none
      raiseIf (member.requireTimesheetApproval = true ∧ sourceTimesheetId = none)
        "Approve the matching timesheet before generating payroll"
      match s.zone with
      | none => .error (.valueError "Organization timezone is invalid")
      | some zone => do
        raiseIf (dateOf (zone.fromutc s.clock).wall ≤ periodEnd)
          "Payroll can only be generated for a completed period"
        let hours ← payrollHours zone s.settings s.db userId periodStart periodEnd
        return { s with
          payments := s.payments ++
            [{ id := s.nextId, userId, periodStart, periodEnd, regularMinutes := hours.regular,
               overtimeMinutes := hours.overtime, payRateSnapshot := member.payRate, currency,
               sourceTimesheetId, createdAt := s.clock, zone }]
          nextId := s.nextId + 1 }

/-! ## Runs -/

/-- A payroll run, a change of the time zone or of the other settings, and any transaction on users,
timesheets and time. -/
inductive PayrollOp
  | tick (now : Int)
  | createPayroll (userId : Nat) (periodStart periodEnd : Int) (currency : Option String)
  | setTimezone (zone : Option ZoneInfo)
  | setOvertime (settings : PayrollSettings)
  | edit (db : Database) (members : List PayrollMember)

/-- The state after a call: a call that raises is rolled back. -/
def PayrollState.commit (s : PayrollState) (result : Except Error PayrollState) : PayrollState :=
  match result with
  | .ok s' => s'
  | .error _ => s

/-- One step. -/
def payrollStep (s : PayrollState) : PayrollOp → PayrollState
  | .tick now => { s with clock := max s.clock now }
  | .createPayroll userId periodStart periodEnd currency =>
    s.commit (createPayroll s userId periodStart periodEnd currency)
  | .setTimezone zone => { s with zone }
  | .setOvertime settings => { s with settings }
  | .edit db members => { s with db, members }

/-- Nothing has been paid yet. -/
def PayrollState.withoutPayments (s : PayrollState) : PayrollState := { s with payments := [] }

/-! ## Windows -/

/-- The local midnight that begins the period, in the zone of the run. -/
def PayrollRun.opens (p : PayrollRun) : Int := midnightOf p.zone p.periodStart

/-- The local midnight after the period. -/
def PayrollRun.closes (p : PayrollRun) : Int := midnightOf p.zone (p.periodEnd + 1)

/-- The instant lies in the paid window. -/
def PayrollRun.pays (p : PayrollRun) (t : Int) : Prop := p.opens ≤ t ∧ t < p.closes

/-- The member has tracked or approved manual time at the instant; an open segment has no end yet. -/
def WorkedAt (db : Database) (userId : Nat) (t : Int) : Prop :=
  (∃ row ∈ paidTime db userId, row.1 ≤ t ∧ t < row.2) ∨
    ∃ ws ∈ db.workSessions, ws.userId = some userId ∧
      ∃ g ∈ db.segments, g.sessionId = ws.id ∧ g.endedAt = none ∧ g.startedAt ≤ t

/-- No instant of a member's time is paid by both. -/
def PaysApart (db : Database) (p q : PayrollRun) : Prop :=
  p.userId = q.userId → ∀ t, WorkedAt db p.userId t → ¬ (p.pays t ∧ q.pays t)

/-- The midnight that begins the later of two periods, in the zone of its run, is not before the
midnight that ends the earlier one, in the zone of its own. -/
def periodsInOrder (p : PayrollRun) (zone : ZoneInfo) (periodStart periodEnd : Int) : Bool :=
  (!(p.periodEnd < periodStart) || p.closes ≤ midnightOf zone periodStart) &&
    (!(periodEnd < p.periodStart) || midnightOf zone (periodEnd + 1) ≤ p.opens)

/-- **The zone of a payroll run agrees with those of the member's stored payments** on the midnights
between the periods. -/
def midnightsInOrder (s : PayrollState) : PayrollOp → Bool
  | .createPayroll userId periodStart periodEnd _ =>
    s.payments.all fun p => p.userId != userId ||
      s.zone.all fun zone => periodsInOrder p zone periodStart periodEnd
  | _ => true

/-! ## What a run adds -/

/-- An accepted call adds one row, for dates that no payment of the member has, in the zone of the
organization. -/
theorem createPayroll_ok {s s' : PayrollState} {userId : Nat} {periodStart periodEnd : Int}
    {currency : Option String}
    (h : createPayroll s userId periodStart periodEnd currency = .ok s') :
    ∃ p : PayrollRun, s' = { s with payments := s.payments ++ [p], nextId := s.nextId + 1 } ∧
      p.userId = userId ∧ p.periodStart = periodStart ∧ p.periodEnd = periodEnd ∧
      s.zone = some p.zone ∧
      ∀ q ∈ s.payments, q.userId = userId → q.meets periodStart periodEnd = false := by
  unfold createPayroll at h
  obtain ⟨_, _, h⟩ := bind_eq_ok.mp h
  obtain ⟨_, _, h⟩ := bind_eq_ok.mp h
  split at h
  · simp at h
  rename_i currency
  split at h
  · simp at h
  rename_i member _
  obtain ⟨_, _, h⟩ := bind_eq_ok.mp h
  obtain ⟨_, hduplicate, h⟩ := bind_eq_ok.mp h
  obtain ⟨_, _, h⟩ := bind_eq_ok.mp h
  split at h
  · simp at h
  rename_i zone hzone
  obtain ⟨_, _, h⟩ := bind_eq_ok.mp h
  obtain ⟨hours, _, h⟩ := bind_eq_ok.mp h
  refine ⟨_, (Except.ok.inj h).symm, rfl, rfl, rfl, hzone, fun q hq huser => ?_⟩
  have hnone : ¬ s.payments.any (fun p => p.userId == userId && p.meets periodStart periodEnd) = true :=
    raiseIf_eq_ok.mp hduplicate
  rw [Bool.not_eq_true, List.any_eq_false] at hnone
  have hq' := hnone q hq
  rw [huser] at hq'
  simpa using hq'

/-- What holds of the state, and of every state that a call can return, holds after it. -/
theorem PayrollState.commit_holds {Inv : PayrollState → Prop} {s : PayrollState}
    {result : Except Error PayrollState} (hs : Inv s) (hok : ∀ s', result = .ok s' → Inv s') :
    Inv (s.commit result) := by
  cases result with
  | error e => exact hs
  | ok s' => exact hok s' rfl

/-- Disjoint dates are disjoint windows when the midnights between them are in order. -/
theorem not_pays_both {p q : PayrollRun} (hmeets : p.meets q.periodStart q.periodEnd = false)
    (horder : periodsInOrder p q.zone q.periodStart q.periodEnd = true) (t : Int) :
    ¬ (p.pays t ∧ q.pays t) := by
  rintro ⟨⟨hpopens, hpcloses⟩, hqopens, hqcloses⟩
  unfold PayrollRun.meets at hmeets
  unfold periodsInOrder at horder
  rw [Bool.and_eq_true, Bool.or_eq_true, Bool.or_eq_true] at horder
  obtain ⟨hafter, hbefore⟩ := horder
  simp only [Bool.not_eq_true', decide_eq_false_iff_not, decide_eq_true_eq] at hafter hbefore
  rw [Bool.and_eq_false_iff] at hmeets
  rcases hmeets with hlate | hearly
  · -- the stored period comes after the new one
    have hlt : q.periodEnd < p.periodStart := by simpa using hlate
    have hle := hbefore.resolve_left (by omega)
    unfold PayrollRun.closes at hqcloses
    omega
  · -- the stored period comes before it
    have hlt : p.periodEnd < q.periodStart := by simpa using hearly
    have hle := hafter.resolve_left (by omega)
    unfold PayrollRun.opens at hqopens
    omega

/-- The windows of the payments of one member share no instant. -/
def WindowsApart (s : PayrollState) : Prop :=
  s.payments.Pairwise fun p q => p.userId = q.userId → ∀ t, ¬ (p.pays t ∧ q.pays t)

theorem WindowsApart.step {s : PayrollState} {op : PayrollOp} (h : WindowsApart s)
    (horder : midnightsInOrder s op = true) : WindowsApart (payrollStep s op) := by
  cases op with
  | createPayroll userId periodStart periodEnd currency =>
    refine PayrollState.commit_holds h fun s' hok => ?_
    obtain ⟨p, rfl, rfl, rfl, rfl, hzone, hmeets⟩ := createPayroll_ok hok
    refine List.pairwise_append.mpr ⟨h, List.pairwise_singleton _ _, fun q hq p' hp' huser t => ?_⟩
    obtain rfl : p' = p := List.mem_singleton.mp hp'
    refine not_pays_both (hmeets q hq huser) ?_ t
    have hq' := List.all_eq_true.mp horder q hq
    rw [hzone, Bool.or_eq_true] at hq'
    exact hq'.resolve_left (by simp [huser])
  | tick now => exact h
  | setTimezone zone => exact h
  | setOvertime settings => exact h
  | edit db members => exact h

/-- **No instant is paid twice.** In every run whose payroll runs find the midnights in order, no instant
of a member's tracked or approved manual time lies in the paid windows of two stored payments. -/
theorem payroll_paysOnce (s : PayrollState) (ops : List PayrollOp)
    (h : Guarded payrollStep (fun s op => midnightsInOrder s op = true) s.withoutPayments ops) :
    (run payrollStep s.withoutPayments ops).payments.Pairwise
      (PaysApart (run payrollStep s.withoutPayments ops).db) := by
  have hrun : WindowsApart (run payrollStep s.withoutPayments ops) :=
    guarded_invariant WindowsApart (fun _ _ hs hg => hs.step hg) (by exact List.Pairwise.nil) h
  exact hrun.imp fun happ huser t _ => happ huser t

/-- An hour of the tenth day and an hour of the eleventh, both from noon. -/
def noonHours : Database where
  users := [{ id := 1, role := .member, enabled := true, dailyLimitMinutes := 0,
              weeklyLimitMinutes := 0 }]
  workSessions := [{ id := 1, userId := some 1, deviceId := 1, projectId := some 1, taskId := none,
                     status := .stopped, note := "", startedAt := days 10 + minutes 720,
                     endedAt := some (days 11 + minutes 780), createdAt := days 10 + minutes 720,
                     updatedAt := days 11 + minutes 780 }]
  segments := [{ id := 1, sessionId := 1, startedAt := days 10 + minutes 720,
                 endedAt := some (days 10 + minutes 780) },
               { id := 2, sessionId := 1, startedAt := days 11 + minutes 720,
                 endedAt := some (days 11 + minutes 780) }]

/-- A zone that stays `hours` ahead of UTC. -/
def hoursAhead (hours : Int) : ZoneInfo :=
  Library.Zone.ofTransition 0 (minutes (60 * hours)) (minutes (60 * hours))
    ⟨3600 * hours, by unfold minutes seconds; omega⟩ ⟨3600 * hours, by unfold minutes seconds; omega⟩

/-- The organization in UTC, on the twentieth day. -/
def noonPayroll : PayrollState where
  db := noonHours
  members := [{ userId := 1, payRate := 2000, requireTimesheetApproval := false }]
  settings := { weekStartsOn := 1, overtimeEnabled := true, weeklyOvertimeMinutes := 2400 }
  zone := some (hoursAhead 0)
  clock := days 20
  payments := []
  nextId := 1

/-- The tenth day is paid, the organization moves west, and the eleventh day, which then begins later,
is paid too. -/
theorem payroll_paysOnce_west :
    (run payrollStep noonPayroll.withoutPayments
        [.createPayroll 1 10 10 (some "USD"), .setTimezone (some (hoursAhead (-5))),
         .createPayroll 1 11 11 (some "USD")]).payments.Pairwise
      (PaysApart (run payrollStep noonPayroll.withoutPayments
        [.createPayroll 1 10 10 (some "USD"), .setTimezone (some (hoursAhead (-5))),
         .createPayroll 1 11 11 (some "USD")]).db) :=
  payroll_paysOnce noonPayroll _ (by decide +kernel)

/-! ## A zone further east -/

/-- The tenth day is paid in UTC; fourteen hours ahead of it, noon of the tenth is on the eleventh. -/
def movedEast : List PayrollOp :=
  [.createPayroll 1 10 10 (some "USD"), .setTimezone (some (hoursAhead 14)),
   .createPayroll 1 11 11 (some "USD")]

/-- The hour is paid twice. -/
theorem payroll_paysTwice :
    ¬ ∀ (s : PayrollState) (ops : List PayrollOp),
      (run payrollStep s.withoutPayments ops).payments.Pairwise
        (PaysApart (run payrollStep s.withoutPayments ops).db) := by
  intro h
  have hapart := h noonPayroll movedEast
  have hwindows : (run payrollStep noonPayroll.withoutPayments movedEast).payments.map
      (fun p => (p.userId, p.opens, p.closes)) =
      [(1, days 10, days 11), (1, days 11 - minutes 840, days 12 - minutes 840)] := by decide +kernel
  have hpair : [(1, days 10, days 11), (1, days 11 - minutes 840, days 12 - minutes 840)].Pairwise
      fun p q : Nat × Int × Int => p.1 = q.1 → ∀ t,
        WorkedAt (run payrollStep noonPayroll.withoutPayments movedEast).db p.1 t →
        ¬ ((p.2.1 ≤ t ∧ t < p.2.2) ∧ q.2.1 ≤ t ∧ t < q.2.2) := by
    rw [← hwindows]
    exact List.pairwise_map.mpr hapart
  have hworked : WorkedAt (run payrollStep noonPayroll.withoutPayments movedEast).db 1
      (days 10 + minutes 720) :=
    .inl ⟨(days 10 + minutes 720, days 10 + minutes 780), by decide +kernel, by decide, by decide⟩
  exact (List.pairwise_cons.mp hpair).1 _ List.mem_cons_self rfl _ hworked (by decide)

/-! ## One zone -/

/-- A zone whose midnights are in order agrees with itself. -/
theorem periodsInOrder_self {p : PayrollRun} (hzone : MidnightsInOrder p.zone)
    (periodStart periodEnd : Int) : periodsInOrder p p.zone periodStart periodEnd = true := by
  unfold periodsInOrder
  simp only [Bool.and_eq_true, Bool.or_eq_true, Bool.not_eq_true', decide_eq_false_iff_not,
    decide_eq_true_eq]
  constructor
  · by_cases hlt : p.periodEnd < periodStart
    · exact .inr (hzone.le (by omega))
    · exact .inl hlt
  · by_cases hlt : periodEnd < p.periodStart
    · exact .inr (hzone.le (by omega))
    · exact .inl hlt

/-- The zone of the organization, and of every payment, is this one. -/
def InZone (zone : ZoneInfo) (s : PayrollState) : Prop :=
  s.zone = some zone ∧ ∀ p ∈ s.payments, p.zone = zone

theorem InZone.step {zone : ZoneInfo} {s : PayrollState} {op : PayrollOp} (h : InZone zone s)
    (hop : ∀ z, op ≠ .setTimezone z) : InZone zone (payrollStep s op) := by
  have ⟨hzone, hpayments⟩ := h
  cases op with
  | createPayroll userId periodStart periodEnd currency =>
    refine PayrollState.commit_holds h fun s' hok => ?_
    obtain ⟨p, rfl, _, _, _, hp, _⟩ := createPayroll_ok hok
    refine ⟨hzone, fun q hq => ?_⟩
    rcases List.mem_append.mp hq with hold | hnew
    · exact hpayments q hold
    · rw [List.mem_singleton.mp hnew]
      exact Option.some.inj (hp.symm.trans hzone)
  | setTimezone z => exact absurd rfl (hop z)
  | _ => exact ⟨hzone, hpayments⟩

theorem InZone.midnightsInOrder {zone : ZoneInfo} {s : PayrollState} (h : InZone zone s)
    (hzone : MidnightsInOrder zone) (op : PayrollOp) : midnightsInOrder s op = true := by
  cases op with
  | createPayroll userId periodStart periodEnd currency =>
    refine List.all_eq_true.mpr fun p hp => ?_
    have hself := h.2 p hp
    rw [Bool.or_eq_true, h.1]
    refine .inr ?_
    subst hself
    exact periodsInOrder_self hzone periodStart periodEnd
  | _ => rfl

/-- **While the organization keeps its zone**, every run meets the condition. -/
theorem guarded_of_inZone {zone : ZoneInfo} {s : PayrollState} {ops : List PayrollOp}
    (hs : InZone zone s) (hzone : MidnightsInOrder zone)
    (hops : Guarded payrollStep (fun _ op => ∀ z, op ≠ .setTimezone z) s ops) :
    Guarded payrollStep (fun s op => Dayfinch.midnightsInOrder s op = true) s ops :=
  hops.of_invariant (InZone zone) (fun _ op h hop => ⟨h.step hop, h.midnightsInOrder hzone op⟩) hs

end Dayfinch
