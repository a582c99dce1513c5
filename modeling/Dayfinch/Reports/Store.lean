/-
# Dayfinch.Reports.Store -- the table of scheduled reports and its claims

A worker claims the reports that are due with a token of its own and a lease, sends them, and completes
each under its token. `ScheduledReport.claim` holds the two claim columns together, as the table's check
does. `ReportStore` carries the primary key as a field.
-/
import Dayfinch.Library.Outcome
import Dayfinch.Reports.Schedule
import Dayfinch.Schema
import Mathlib.Data.List.Sort

namespace Dayfinch

open Library (UniqueKey updateWhere mem_updateWhere_of_false Ensures ensures_pure ensures_error ensures_ok ensures_ite)

/-! ## Rows -/

/-- `scheduled_reports`. The jitter belongs to the identifier. -/
structure ScheduledReport where
  id : Nat
  schedule : ReportSchedule
  rangePreset : RangePreset
  jitterSeconds : Fin 61
  enabled : Bool
  nextSendAt : Option Int
  lastSentAt : Option Int
  lastFailedAt : Option Int
  lastErrorCode : String
  consecutiveFailures : Nat
  /-- `delivery_claim_token` and `delivery_claim_until`. -/
  claim : Option (Nat × Int)
  deriving DecidableEq, Repr

namespace ScheduledReport

/-- The `WHERE` of `due_scheduled_reports`. -/
def due (report : ScheduledReport) (now : Int) : Bool :=
  report.enabled && report.nextSendAt.any (· ≤ now) && report.claim.all (·.2 ≤ now)

/-- The `SET` of `due_scheduled_reports`. -/
def claimed (token : Nat) (until_ : Int) (report : ScheduledReport) : ScheduledReport :=
  { report with claim := some (token, until_) }

/-- `delivery_claim_token=%s`. -/
def claimedBy (report : ScheduledReport) (token : Nat) : Bool := report.claim.any (·.1 == token)

/-- The `SET` of `mark_scheduled_report_sent`. -/
def sent (sentAt nextSendAt : Int) (report : ScheduledReport) : ScheduledReport :=
  { report with
    lastSentAt := some sentAt
    nextSendAt := some nextSendAt
    consecutiveFailures := 0
    lastErrorCode := ""
    claim := none }

/-- The `SET` of `mark_scheduled_report_failed`. -/
def failed (failedAt nextAttemptAt : Int) (errorCode : String) (report : ScheduledReport) :
    ScheduledReport :=
  { report with
    consecutiveFailures := report.consecutiveFailures + 1
    lastFailedAt := some failedAt
    lastErrorCode := errorCode
    nextSendAt := some nextAttemptAt
    claim := none }

/-- The `SET` of `set_scheduled_report_enabled`. -/
def withEnabled (enabled : Bool) (now : Int) (report : ScheduledReport) : ScheduledReport :=
  { report with
    enabled := enabled
    nextSendAt :=
      if enabled then some (nextReportDelivery now report.schedule) else report.nextSendAt
    consecutiveFailures := if enabled then 0 else report.consecutiveFailures
    lastErrorCode := if enabled then "" else report.lastErrorCode
    claim := none }

/-- The bound of `scheduled_reports_consecutive_failures_check`. -/
def maxConsecutiveFailures : Nat := 1000000

end ScheduledReport

/-! ## The table -/

/-- The table of scheduled reports. -/
structure ReportStore where
  reports : List ScheduledReport
  primaryKey : UniqueKey ScheduledReport.id reports

namespace ReportStore

/-- `ORDER BY next_send_at, id`. -/
def sendsBefore (a b : ScheduledReport) : Bool :=
  a.nextSendAt.getD 0 < b.nextSendAt.getD 0 ||
    (a.nextSendAt.getD 0 == b.nextSendAt.getD 0 && a.id ≤ b.id)

/-- The identifiers of the `candidates`; rows that another transaction has locked are skipped. -/
def candidates (store : ReportStore) (now : Int) (limit : Nat) (locked : List Nat) : List Nat :=
  (((store.reports.filter fun r => r.due now && !locked.contains r.id).insertionSort
    fun a b => sendsBefore a b = true).take limit).map (·.id)

/-- `due_scheduled_reports(now, claim_token, lease_seconds=.., limit=..)`. -/
def dueScheduledReports (store : ReportStore) (now : Int) (claimToken : Nat) (leaseSeconds : Int)
    (limit : Nat) (locked : List Nat) : Except Error (ReportStore × List ScheduledReport) := do
  raiseIf (¬ (60 ≤ leaseSeconds ∧ leaseSeconds ≤ 2 * 60 * 60)) "Invalid scheduled report claim lease"
  raiseIf (¬ (1 ≤ limit ∧ limit ≤ 100)) "Invalid scheduled report claim limit"
  let chosen := store.candidates now limit locked
  let claim := ScheduledReport.claimed claimToken (now + seconds leaseSeconds)
  return (
    { reports := updateWhere (fun r => chosen.contains r.id) claim store.reports
      primaryKey := store.primaryKey.updateWhere fun _ => rfl },
    (store.reports.filter fun r => chosen.contains r.id).map claim)

/-- The `WHERE` of a completion: the report, under the token if there is one. -/
def completes (reportId : Nat) (claimToken : Option Nat) (report : ScheduledReport) : Bool :=
  report.id == reportId && claimToken.all report.claimedBy

/-- `mark_scheduled_report_sent(report_id, sent_at, next_send_at, claim_token)`. -/
def markScheduledReportSent (store : ReportStore) (reportId : Nat) (sentAt nextSendAt : Int)
    (claimToken : Option Nat) : Except Error ReportStore :=
  if store.reports.any (completes reportId claimToken) then
    .ok {
      reports := updateWhere (completes reportId claimToken) (.sent sentAt nextSendAt) store.reports
      primaryKey := store.primaryKey.updateWhere fun _ => rfl }
  else .error (.valueError "Scheduled report delivery claim was lost")

/-- `mark_scheduled_report_failed(report_id, failed_at, next_attempt_at, error_code, claim_token)`. -/
def markScheduledReportFailed (store : ReportStore) (reportId : Nat) (failedAt nextAttemptAt : Int)
    (errorCode : String) (claimToken : Option Nat) : Except Error ReportStore := do
  raiseIf (errorCode = "" ∨ 64 < errorCode.length) "Invalid scheduled report error code"
  if store.reports.any (completes reportId claimToken) then
    if store.reports.any fun r => completes reportId claimToken r &&
        ScheduledReport.maxConsecutiveFailures ≤ r.consecutiveFailures then
      .error .checkViolation
    else
      .ok {
        reports := updateWhere (completes reportId claimToken)
          (.failed failedAt nextAttemptAt errorCode) store.reports
        primaryKey := store.primaryKey.updateWhere fun _ => rfl }
  else .error (.valueError "Scheduled report delivery claim was lost")

/-- `set_scheduled_report_enabled(report_id, enabled)`. -/
def setScheduledReportEnabled (store : ReportStore) (reportId : Nat) (enabled : Bool) (now : Int) :
    Except Error ReportStore :=
  if store.reports.any (·.id == reportId) then
    .ok {
      reports := updateWhere (·.id == reportId) (.withEnabled enabled now) store.reports
      primaryKey := store.primaryKey.updateWhere fun _ => rfl }
  else .error (.valueError "Scheduled report not found")

/-- `delete_scheduled_report(report_id)`. -/
def deleteScheduledReport (store : ReportStore) (reportId : Nat) : Except Error ReportStore :=
  if store.reports.any (·.id == reportId) then
    .ok {
      reports := store.reports.filter (!·.id == reportId)
      primaryKey := store.primaryKey.sublist List.filter_sublist }
  else .error (.valueError "Scheduled report not found")

/-! ## What a transaction changes -/

/-- Every row that the transaction does not keep satisfies `p`. -/
def Changes (p : ScheduledReport → Prop) (store store' : ReportStore) : Prop :=
  ∀ r ∈ store.reports, r ∈ store'.reports ∨ p r

theorem mem_updateWhere_or {rows : List ScheduledReport} {q : ScheduledReport → Bool}
    {f : ScheduledReport → ScheduledReport} {r : ScheduledReport} (hr : r ∈ rows) :
    r ∈ updateWhere q f rows ∨ q r = true := by
  by_cases hq : q r = true
  · exact .inr hq
  · exact .inl (mem_updateWhere_of_false hr (by simpa using hq))

/-- Only a report that is due is claimed. -/
theorem due_of_mem_candidates {store : ReportStore} {now : Int} {limit : Nat} {locked : List Nat}
    {r : ScheduledReport} (hr : r ∈ store.reports) (h : r.id ∈ store.candidates now limit locked) :
    r.due now = true := by
  obtain ⟨q, hq, hid⟩ := List.mem_map.mp h
  have hfiltered := (List.mem_insertionSort _).mp (List.mem_of_mem_take hq)
  obtain ⟨hmem, hdue⟩ := List.mem_filter.mp hfiltered
  obtain rfl : q = r := store.primaryKey.eq hmem hr hid
  exact (Bool.and_eq_true _ _ ▸ hdue).1

theorem changes_dueScheduledReports (store : ReportStore) (now : Int) (claimToken : Nat)
    (leaseSeconds : Int) (limit : Nat) (locked : List Nat) :
    Ensures (store.dueScheduledReports now claimToken leaseSeconds limit locked) fun result =>
      Changes (fun r => r.due now = true) store result.1 := by
  unfold dueScheduledReports
  refine Ensures.bind ensures_raiseIf fun _ _ => ?_
  refine Ensures.bind ensures_raiseIf fun _ _ => ?_
  rw [ensures_pure]
  intro r hr
  rcases mem_updateWhere_or hr with hkept | hchosen
  · exact .inl hkept
  · exact .inr (due_of_mem_candidates hr (List.contains_iff_mem.mp hchosen))

theorem changes_markScheduledReportSent (store : ReportStore) (reportId : Nat)
    (sentAt nextSendAt : Int) (claimToken : Option Nat) :
    Ensures (store.markScheduledReportSent reportId sentAt nextSendAt claimToken) fun store' =>
      Changes (fun r => completes reportId claimToken r = true) store store' := by
  apply ensures_ite
  · intro _
    exact ensures_ok.mpr fun _ hr => mem_updateWhere_or hr
  · intro _
    exact ensures_error

theorem changes_markScheduledReportFailed (store : ReportStore) (reportId : Nat)
    (failedAt nextAttemptAt : Int) (errorCode : String) (claimToken : Option Nat) :
    Ensures (store.markScheduledReportFailed reportId failedAt nextAttemptAt errorCode claimToken)
      fun store' => Changes (fun r => completes reportId claimToken r = true) store store' := by
  refine Ensures.bind ensures_raiseIf fun _ _ => ?_
  apply ensures_ite
  · intro _
    apply ensures_ite
    · intro _
      exact ensures_error
    · intro _
      exact ensures_ok.mpr fun _ hr => mem_updateWhere_or hr
  · intro _
    exact ensures_error

theorem changes_setScheduledReportEnabled (store : ReportStore) (reportId : Nat) (enabled : Bool)
    (now : Int) :
    Ensures (store.setScheduledReportEnabled reportId enabled now) fun store' =>
      Changes (fun r => r.id = reportId) store store' := by
  apply ensures_ite
  · intro _
    rw [ensures_ok]
    intro r hr
    rcases mem_updateWhere_or hr with hkept | hid
    · exact .inl hkept
    · exact .inr (beq_iff_eq.mp hid)
  · intro _
    exact ensures_error

theorem changes_deleteScheduledReport (store : ReportStore) (reportId : Nat) :
    Ensures (store.deleteScheduledReport reportId) fun store' =>
      Changes (fun r => r.id = reportId) store store' := by
  apply ensures_ite
  · intro _
    rw [ensures_ok]
    intro r hr
    by_cases hid : r.id = reportId
    · exact .inr hid
    · exact .inl (List.mem_filter.mpr ⟨hr, by simpa using hid⟩)
  · intro _
    exact ensures_error

/-- **When a failure is refused.** With a well-formed code, a failure is recorded exactly when some row
holds the claim and its counter has room. -/
theorem markScheduledReportFailed_eq_ok_iff (store : ReportStore) {reportId : Nat}
    {failedAt nextAttemptAt : Int} {errorCode : String} {claimToken : Option Nat}
    (hcode : errorCode ≠ "" ∧ errorCode.length ≤ 64) :
    (∃ store', store.markScheduledReportFailed reportId failedAt nextAttemptAt errorCode claimToken =
      .ok store') ↔
      ∃ r ∈ store.reports, completes reportId claimToken r = true ∧
        r.consecutiveFailures < ScheduledReport.maxConsecutiveFailures := by
  have hraise : ¬ (errorCode = "" ∨ 64 < errorCode.length) := by
    rintro (hempty | hlong)
    · exact hcode.1 hempty
    · exact absurd hcode.2 (Nat.not_le.mpr hlong)
  unfold markScheduledReportFailed
  rw [(raiseIf_eq_ok (u := ())).mpr hraise]
  simp only [bind, Except.bind]
  by_cases hcompletes : store.reports.any (completes reportId claimToken) = true
  · rw [if_pos hcompletes]
    obtain ⟨r, hr, hrow⟩ := List.any_eq_true.mp hcompletes
    -- the row is the only one with its identifier
    have hunique : ∀ q ∈ store.reports, completes reportId claimToken q = true → q = r := by
      intro q hq hqrow
      apply store.primaryKey.eq hq hr
      unfold completes at hqrow hrow
      rw [Bool.and_eq_true, beq_iff_eq] at hqrow hrow
      rw [hqrow.1, hrow.1]
    by_cases hfull : (store.reports.any fun r => completes reportId claimToken r &&
        ScheduledReport.maxConsecutiveFailures ≤ r.consecutiveFailures) = true
    · rw [if_pos hfull]
      obtain ⟨q, hq, hqfull⟩ := List.any_eq_true.mp hfull
      rw [Bool.and_eq_true, decide_eq_true_eq] at hqfull
      constructor
      · rintro ⟨store', hstore⟩
        cases hstore
      · rintro ⟨q', hq', hrow', hroom⟩
        rw [hunique q' hq' hrow', ← hunique q hq hqfull.1] at hroom
        exact absurd hroom (Nat.not_lt.mpr hqfull.2)
    · rw [if_neg hfull]
      refine ⟨fun _ => ⟨r, hr, hrow, ?_⟩, fun _ => ⟨_, rfl⟩⟩
      apply Nat.lt_of_not_le
      intro hle
      exact hfull (List.any_eq_true.mpr ⟨r, hr, by simp [hrow, hle]⟩)
  · rw [if_neg hcompletes]
    constructor
    · rintro ⟨store', hstore⟩
      cases hstore
    · rintro ⟨q, hq, hrow, _⟩
      exact absurd (List.any_eq_true.mpr ⟨q, hq, hrow⟩) hcompletes

end ReportStore

end Dayfinch
