/-
# Dayfinch.Reports.Coverage -- when the reports of a schedule cover every period once

A schedule's windows should follow each other without a gap or a repeat. The window is computed from the
instant a report is sent at, and a retry may carry that instant past the end of the day, the week or the
month of its slot. `deliveries_adjacent_iff` says what the windows of a run do: as long as every delivery
succeeds before the following slot, they are adjacent exactly when every report is sent in the period of
its slot, or every one in the period after it.
-/
import Dayfinch.Library.Run
import Dayfinch.Reports.Store

namespace Dayfinch

open Library (Recurrence)

/-! ## Runs of one report -/

/-- A report that was sent: the slot it was due for, when it was sent, and the window it covers. -/
structure Delivery where
  slot : Int
  sentAt : Int
  window : Int × Int
  deriving DecidableEq, Repr

/-- A report, the slot it is due for, and what was delivered. -/
structure ReportRun where
  report : ScheduledReport
  slot : Int
  deliveries : List Delivery
  deriving DecidableEq, Repr

/-- What becomes of a due report in one `deliver_due`. -/
inductive TickOutcome
  /-- It is not among the claimed reports: the batch is full, or another worker holds the row. -/
  | skipped
  /-- The worker stops after the claim. -/
  | crashed
  | failed (errorCode : String)
  | sent
  deriving DecidableEq, Repr

/-- One `deliver_due`, as far as it touches the report. -/
structure DeliveryTick where
  now : Int
  claimToken : Nat
  outcome : TickOutcome
  deriving DecidableEq, Repr

/-- The lease of `deliver_due`. -/
def deliveryLease : Int := seconds (30 * 60)

/-- `deliver_due(now)`. A failure that the table refuses leaves the claim. -/
def ReportRun.tick (s : ReportRun) (t : DeliveryTick) : ReportRun :=
  if s.report.due t.now then
    let claimed := s.report.claimed t.claimToken (t.now + deliveryLease)
    match t.outcome with
    | .skipped => s
    | .crashed => { s with report := claimed }
    | .failed errorCode =>
      if ScheduledReport.maxConsecutiveFailures ≤ s.report.consecutiveFailures then
        { s with report := claimed }
      else
        let nextAttemptAt := scheduledReportRetryAt t.now s.report.consecutiveFailures
          s.report.jitterSeconds
        { s with report := claimed.failed t.now nextAttemptAt errorCode }
    | .sent =>
      let nextSendAt := nextReportDelivery t.now s.report.schedule
      { report := claimed.sent t.now nextSendAt
        slot := nextSendAt
        deliveries := s.deliveries ++ [⟨s.slot, t.now,
          scheduledReportWindow t.now s.report.schedule.frequency s.report.rangePreset⟩] }
  else s

/-- `create_scheduled_report` for the previous period, at an instant. -/
def ReportRun.created (id : Nat) (schedule : ReportSchedule) (jitterSeconds : Fin 61) (now : Int) :
    ReportRun where
  report :=
    { id, schedule, jitterSeconds
      rangePreset := .previousPeriod
      enabled := true
      nextSendAt := some (nextReportDelivery now schedule)
      lastSentAt := none
      lastFailedAt := none
      lastErrorCode := ""
      consecutiveFailures := 0
      claim := none }
  slot := nextReportDelivery now schedule
  deliveries := []

/-! ## The invariant -/

/-- What holds of a run: the report is not due before its slot; every delivery follows its slot and
covers the period before it; and consecutive deliveries, with the report's slot after the last, are due
for the slots that follow their instants. -/
structure RunInvariant (schedule : ReportSchedule) (s : ReportRun) : Prop where
  schedule_eq : s.report.schedule = schedule
  preset_eq : s.report.rangePreset = .previousPeriod
  isSlot : schedule.recurrence.IsSlot s.slot
  notBefore : ∀ t ∈ s.report.nextSendAt, s.slot ≤ t
  follows : ∀ d ∈ s.deliveries, schedule.recurrence.IsSlot d.slot ∧ d.slot ≤ d.sentAt ∧
    d.window = schedule.recurrence.window d.sentAt
  chain : s.deliveries.IsChain fun d e => e.slot = schedule.recurrence.next d.sentAt
  last : ∀ d ∈ s.deliveries.getLast?, s.slot = schedule.recurrence.next d.sentAt

theorem runInvariant_created (id : Nat) (schedule : ReportSchedule) (jitterSeconds : Fin 61)
    (now : Int) : RunInvariant schedule (.created id schedule jitterSeconds now) where
  schedule_eq := rfl
  preset_eq := rfl
  isSlot := by
    show schedule.recurrence.IsSlot (nextReportDelivery now schedule)
    rw [nextReportDelivery_eq_next]
    exact Recurrence.isSlot_next now
  notBefore := by
    intro t ht
    exact (Option.some.inj ht).le
  follows := by
    intro d hd
    cases hd
  chain := .nil
  last := by
    intro d hd
    cases hd

/-- Where only the report changes, and is not due before its slot, the invariant is kept. -/
theorem RunInvariant.report {schedule : ReportSchedule} {s : ReportRun} (h : RunInvariant schedule s)
    (report : ScheduledReport) (hschedule : report.schedule = s.report.schedule)
    (hpreset : report.rangePreset = s.report.rangePreset)
    (hnext : ∀ t ∈ report.nextSendAt, s.slot ≤ t) :
    RunInvariant schedule { s with report := report } :=
  ⟨hschedule.trans h.schedule_eq, hpreset.trans h.preset_eq, h.isSlot, hnext, h.follows, h.chain,
    h.last⟩

/-- One tick keeps the invariant. -/
theorem RunInvariant.tick {schedule : ReportSchedule} {s : ReportRun} (h : RunInvariant schedule s)
    (t : DeliveryTick) : RunInvariant schedule (s.tick t) := by
  unfold ReportRun.tick
  by_cases hdue : s.report.due t.now = true
  · rw [if_pos hdue]
    have hslot : s.slot ≤ t.now := by
      simp only [ScheduledReport.due, Bool.and_eq_true, Option.any_eq_true, decide_eq_true_eq] at hdue
      obtain ⟨⟨_, next, hnext, hle⟩, _⟩ := hdue
      exact (h.notBefore next hnext).trans hle
    cases t.outcome with
    | skipped => exact h
    | crashed => exact h.report _ rfl rfl h.notBefore
    | failed errorCode =>
      simp only
      split
      · exact h.report _ rfl rfl h.notBefore
      · refine h.report (.failed t.now _ errorCode (.claimed t.claimToken _ s.report)) rfl rfl ?_
        intro next hnext
        rw [← Option.some.inj hnext]
        exact hslot.trans (le_scheduledReportRetryAt _ _ _)
    | sent =>
      simp only
      have hnext : nextReportDelivery t.now s.report.schedule = schedule.recurrence.next t.now := by
        rw [h.schedule_eq, nextReportDelivery_eq_next]
      have hwindow : scheduledReportWindow t.now s.report.schedule.frequency s.report.rangePreset =
          schedule.recurrence.window t.now := by
        rw [h.schedule_eq, h.preset_eq, scheduledReportWindow_previousPeriod]
      rw [hnext, hwindow]
      refine ⟨h.schedule_eq, h.preset_eq, Recurrence.isSlot_next t.now, ?_, ?_, ?_, ?_⟩
      · intro next hsome
        exact (Option.some.inj hsome).le
      · intro d hd
        rcases List.mem_append.mp hd with hold | hnew
        · exact h.follows d hold
        · rw [List.mem_singleton.mp hnew]
          exact ⟨h.isSlot, hslot, rfl⟩
      · apply List.isChain_append.mpr
        refine ⟨h.chain, List.isChain_singleton _, ?_⟩
        intro d hd e he
        rw [← Option.some.inj he]
        exact h.last d hd
      · intro d hd
        rw [List.getLast?_append] at hd
        have hlast : some _ = some d := hd
        rw [← Option.some.inj hlast]
        rfl
  · rw [if_neg hdue]
    exact h

/-! ## Coverage -/

/-- The deliveries of the runs of a report. -/
def deliveries (id : Nat) (schedule : ReportSchedule) (jitterSeconds : Fin 61) (now : Int)
    (ticks : List DeliveryTick) : List Delivery :=
  (Library.run ReportRun.tick (.created id schedule jitterSeconds now) ticks).deliveries

/-- **Windows follow each other exactly when the deliveries are alike.** For every schedule and every run
of `deliver_due` in which each delivery succeeds before the slot that follows its own, the windows of
consecutive deliveries are adjacent if and only if every report is sent in the UTC day, week or month of
its slot, or every report in the one after it. -/
theorem deliveries_adjacent_iff (id : Nat) (schedule : ReportSchedule) (jitterSeconds : Fin 61)
    (now : Int) (ticks : List DeliveryTick)
    (hbefore : ∀ d ∈ deliveries id schedule jitterSeconds now ticks,
      d.sentAt < nextReportDelivery d.slot schedule) :
    (deliveries id schedule jitterSeconds now ticks).IsChain
        (fun d e => d.window.2 = e.window.1) ↔
      (∀ d ∈ deliveries id schedule jitterSeconds now ticks,
        schedule.recurrence.period d.sentAt = schedule.recurrence.period d.slot) ∨
      (∀ d ∈ deliveries id schedule jitterSeconds now ticks,
        schedule.recurrence.period d.sentAt = schedule.recurrence.period d.slot + 1) := by
  have h : RunInvariant schedule
      (Library.run ReportRun.tick (.created id schedule jitterSeconds now) ticks) :=
    Library.run_invariant (RunInvariant schedule) (fun _ t h => h.tick t)
      (runInvariant_created id schedule jitterSeconds now) ticks
  obtain ⟨ds, hds⟩ : ∃ ds, ds = deliveries id schedule jitterSeconds now ticks := ⟨_, rfl⟩
  have hfollows : ∀ d ∈ ds, schedule.recurrence.IsSlot d.slot ∧ d.slot ≤ d.sentAt ∧
      d.window = schedule.recurrence.window d.sentAt := hds ▸ h.follows
  have hchain : ds.IsChain fun d e => e.slot = schedule.recurrence.next d.sentAt := hds ▸ h.chain
  rw [← hds] at hbefore ⊢
  have hpunctual : ∀ d ∈ ds, schedule.recurrence.Follows (d.slot, d.sentAt) := by
    intro d hd
    obtain ⟨hslot, hle, _⟩ := hfollows d hd
    refine ⟨hslot, hle, ?_⟩
    rw [← nextReportDelivery_eq_next]
    exact hbefore d hd
  -- the library's theorem is about the pairs of a slot and an instant
  have hconsecutive : (ds.map fun d => (d.slot, d.sentAt)).IsChain
      fun d e => e.1 = schedule.recurrence.next d.1 := by
    rw [List.isChain_map]
    apply hchain.imp_of_mem_imp
    intro d e hd _ hslot
    obtain ⟨hd_slot, hle, hlt⟩ := hpunctual d hd
    rw [hslot, Recurrence.next_eq_next hd_slot hle hlt]
  have hentries : ∀ entry ∈ ds.map fun d => (d.slot, d.sentAt), schedule.recurrence.Follows entry := by
    intro entry hentry
    obtain ⟨d, hd, rfl⟩ := List.mem_map.mp hentry
    exact hpunctual d hd
  have hwindows := Recurrence.isChain_window_iff hconsecutive hentries
  rw [List.isChain_map] at hwindows
  simp only [List.forall_mem_map] at hwindows
  rw [← hwindows]
  apply List.IsChain.iff_of_mem_imp
  intro d e hd he
  rw [(hfollows d hd).2.2, (hfollows e he).2.2]

/-- A daily report at 23:59, made on 1970-01-01. -/
def nightlyReport : ReportSchedule :=
  { frequency := .daily, clock := ⟨1439, by decide⟩, weekday := ⟨0, by decide⟩, monthDay := .first }

/-- A run in which the first attempt fails a few seconds after the slot, and its retry succeeds on the
next day. -/
def retriedOverMidnight : List DeliveryTick :=
  [⟨seconds (86399 - 30), 1, .failed "delivery_failed"⟩, ⟨days 1 + minutes 6, 2, .sent⟩,
    ⟨days 1 + minutes 1439 + seconds 10, 3, .sent⟩]

/-- A run without failures. -/
def sentAtOnce : List DeliveryTick :=
  [⟨seconds (86399 - 30), 1, .sent⟩, ⟨days 1 + minutes 1439 + seconds 10, 3, .sent⟩]

theorem deliveries_adjacent_sentAtOnce :
    (deliveries 1 nightlyReport 0 0 sentAtOnce).length = 2 ∧
      (deliveries 1 nightlyReport 0 0 sentAtOnce).IsChain (fun d e => d.window.2 = e.window.1) :=
  ⟨by decide +kernel,
    (deliveries_adjacent_iff 1 nightlyReport 0 0 sentAtOnce (by decide +kernel)).mpr
      (.inl (by decide +kernel))⟩

/-- **A retry over midnight repeats a window.** The report of the first slot covers its day, and so does
that of the second. -/
theorem deliveries_notAdjacent :
    ¬ ∀ (id : Nat) (schedule : ReportSchedule) (jitterSeconds : Fin 61) (now : Int)
        (ticks : List DeliveryTick),
        (∀ d ∈ deliveries id schedule jitterSeconds now ticks,
          d.sentAt < nextReportDelivery d.slot schedule) →
        (deliveries id schedule jitterSeconds now ticks).IsChain
          (fun d e => d.window.2 = e.window.1) := by
  intro hall
  have hrun := hall 1 nightlyReport 0 0 retriedOverMidnight (by decide +kernel)
  revert hrun
  decide +kernel

end Dayfinch
