/-
# Dayfinch.Reports.Claims -- workers that deliver the due reports under claims

Workers run `deliver_due` against one table: each takes a batch of due reports under a token of its own,
then attempts them one after the other and completes each under the token. Owners switch schedules off
and on and delete them. Every transaction and every attempt is one step, so the batches interleave in any
order, and a worker may stop anywhere.

`claims_run` is the result: nobody takes a claim that has not expired, a completion changes only what its
token holds, and a batch that is over has attempted every report it claimed, as long as no handler of a
failure is refused while reports are left.
-/
import Dayfinch.Library.Run
import Dayfinch.Reports.Store

namespace Dayfinch

open Library (run Guarded CountedKeys)
open ReportStore (completes Changes)

/-! ## Batches -/

/-- What `_deliver_one` raises. -/
inductive DeliveryFailure
  | scheduledReportTooLarge
  | scheduledReportConfigurationError
  | pdfExportBusy
  /-- `smtplib.SMTPException` or `OSError`. -/
  | unavailable
  /-- Any other exception. -/
  | other
  deriving DecidableEq, Repr

/-- `_error_code`. -/
def DeliveryFailure.errorCode : DeliveryFailure → String
  | .scheduledReportTooLarge => "report_too_large"
  | .scheduledReportConfigurationError => "invalid_configuration"
  | .pdfExportBusy => "pdf_capacity"
  | .unavailable => "delivery_unavailable"
  | .other => "generation_failed"

/-- Where the loop of a batch is. -/
inductive BatchStage
  /-- In `_deliver_one` of the first report that is left, or at the end of the loop. -/
  | delivering
  /-- In the handler of the first report that is left. -/
  | handling (failure : DeliveryFailure)
  /-- An exception has left the loop. -/
  | raised (error : Error)
  /-- The worker has stopped. -/
  | abandoned
  deriving DecidableEq, Repr

def BatchStage.isRaised : BatchStage → Bool
  | .raised _ => true
  | _ => false

/-- One `deliver_due`: what it claimed, what it has attempted, and what is left of the loop. -/
structure Batch where
  claimToken : Nat
  sentAt : Int
  claimed : List Nat
  attempted : List Nat
  reports : List ScheduledReport
  stage : BatchStage
  deriving DecidableEq, Repr

/-- The batch when an iteration is over. -/
def Batch.advance (batch : Batch) (stage : BatchStage) : Batch :=
  { batch with
    attempted := batch.attempted ++ (batch.reports.take 1).map (·.id)
    reports := batch.reports.tail
    stage := stage }

/-- The call has returned, or raised. -/
def Batch.over (batch : Batch) : Bool :=
  match batch.stage with
  | .delivering => batch.reports.isEmpty
  | .raised _ => true
  | _ => false

/-! ## Steps -/

/-- The reports, the server clock, and the batches of all workers. -/
structure ReportState where
  store : ReportStore
  now : Int
  batches : List Batch := []
  nextToken : Nat := 0

/-- What workers and owners do. -/
inductive ReportOp
  /-- `due_scheduled_reports` with a new token, at an instant that was read before. -/
  | claim (delay : Nat) (leaseSeconds : Int) (limit : Nat) (locked : List Nat)
  /-- `_deliver_one` of a batch's report, which ends in `mark_scheduled_report_sent` if nothing is
  raised before. -/
  | deliver (batch : Nat) (failure : Option DeliveryFailure)
  /-- The handler of a batch's report: `mark_scheduled_report_failed`. -/
  | handle (batch : Nat)
  /-- A worker stops. -/
  | abandon (batch : Nat)
  | setEnabled (reportId : Nat) (enabled : Bool)
  | delete (reportId : Nat)
  | tick (elapsed : Nat)
  deriving DecidableEq, Repr

namespace ReportState

/-- What happens to a batch, if there is one of that number. -/
def onBatch (s : ReportState) (i : Nat) (k : Batch → ReportState) : ReportState :=
  match s.batches[i]? with
  | some batch => k batch
  | none => s

theorem onBatch_cases {P : ReportState → Prop} {s : ReportState} {i : Nat} {k : Batch → ReportState}
    (hnone : P s) (hsome : ∀ batch, s.batches[i]? = some batch → P (k batch)) : P (s.onBatch i k) := by
  unfold onBatch
  split
  · rename_i batch hbatch
    exact hsome batch hbatch
  · exact hnone

/-- The tables after a transaction of an owner: one that raises is rolled back. -/
def committed (s : ReportState) (result : Except Error ReportStore) : ReportState :=
  match result with
  | .ok store => { s with store := store }
  | .error _ => s

/-- `due_scheduled_reports`, and the loop over its answer. -/
def openBatch (s : ReportState) (observed leaseSeconds : Int) (limit : Nat) (locked : List Nat) :
    ReportState :=
  match s.store.dueScheduledReports observed s.nextToken leaseSeconds limit locked with
  | .ok (store, reports) =>
    { s with
      store := store
      batches := s.batches ++ [⟨s.nextToken, observed, reports.map (·.id), [], reports, .delivering⟩]
      nextToken := s.nextToken + 1 }
  | .error _ => s

/-- `_deliver_one`. A completion that raises is caught as any other exception. -/
def deliver (s : ReportState) (i : Nat) (batch : Batch) (report : ScheduledReport)
    (failure : Option DeliveryFailure) : ReportState :=
  match failure with
  | some failure => { s with batches := s.batches.set i { batch with stage := .handling failure } }
  | none =>
    match s.store.markScheduledReportSent report.id batch.sentAt
        (nextReportDelivery batch.sentAt report.schedule) (some batch.claimToken) with
    | .ok store => { s with store := store, batches := s.batches.set i (batch.advance .delivering) }
    | .error _ => { s with batches := s.batches.set i { batch with stage := .handling .other } }

/-- The handler. What it raises leaves the loop. -/
def handle (s : ReportState) (i : Nat) (batch : Batch) (report : ScheduledReport)
    (failure : DeliveryFailure) : ReportState :=
  match s.store.markScheduledReportFailed report.id batch.sentAt
      (scheduledReportRetryAt batch.sentAt report.consecutiveFailures report.jitterSeconds)
      failure.errorCode (some batch.claimToken) with
  | .ok store => { s with store := store, batches := s.batches.set i (batch.advance .delivering) }
  | .error error => { s with batches := s.batches.set i (batch.advance (.raised error)) }

end ReportState

/-- One step. -/
def reportStep (s : ReportState) : ReportOp → ReportState
  | .claim delay leaseSeconds limit locked => s.openBatch (s.now - delay) leaseSeconds limit locked
  | .deliver i failure =>
    s.onBatch i fun batch =>
      match batch.stage, batch.reports with
      | .delivering, report :: _ => s.deliver i batch report failure
      | _, _ => s
  | .handle i =>
    s.onBatch i fun batch =>
      match batch.stage, batch.reports with
      | .handling failure, report :: _ => s.handle i batch report failure
      | _, _ => s
  | .abandon i =>
    s.onBatch i fun batch =>
      if batch.over then s
      else { s with batches := s.batches.set i { batch with stage := .abandoned } }
  | .setEnabled reportId enabled =>
    s.committed (s.store.setScheduledReportEnabled reportId enabled s.now)
  | .delete reportId => s.committed (s.store.deleteScheduledReport reportId)
  | .tick elapsed => { s with now := s.now + elapsed }

/-! ## What a step changes -/

/-- When a step may change a report: a claim if no claim on it is unexpired, a completion if its token is
the one that is stored, an owner's operation if it is about the report. -/
def Permitted (s : ReportState) (op : ReportOp) (r : ScheduledReport) : Prop :=
  match op with
  | .claim .. => ∀ claim ∈ r.claim, claim.2 ≤ s.now
  | .deliver i _ | .handle i => ∃ batch ∈ s.batches[i]?, r.claimedBy batch.claimToken = true
  | .setEnabled reportId _ | .delete reportId => r.id = reportId
  | .abandon _ | .tick _ => False

theorem Changes.refl {p : ScheduledReport → Prop} (store : ReportStore) : Changes p store store :=
  fun _ hr => .inl hr

theorem changes_committed {p : ScheduledReport → Prop} {s : ReportState}
    {result : Except Error ReportStore} (h : Library.Ensures result (Changes p s.store)) :
    Changes p s.store (s.committed result).store := by
  cases result with
  | ok store => exact h store rfl
  | error error => exact Changes.refl s.store

theorem claimedBy_of_completes {reportId token : Nat} {r : ScheduledReport}
    (h : completes reportId (some token) r = true) : r.claimedBy token = true := by
  unfold completes at h
  rw [Bool.and_eq_true] at h
  exact h.2

theorem changes_openBatch (s : ReportState) (delay : Nat) (leaseSeconds : Int) (limit : Nat)
    (locked : List Nat) :
    Changes (fun r => ∀ claim ∈ r.claim, claim.2 ≤ s.now) s.store
      (s.openBatch (s.now - delay) leaseSeconds limit locked).store := by
  have hspec := ReportStore.changes_dueScheduledReports s.store (s.now - delay) s.nextToken
    leaseSeconds limit locked
  unfold ReportState.openBatch
  generalize s.store.dueScheduledReports (s.now - delay) s.nextToken leaseSeconds limit locked =
    result at hspec
  cases result with
  | error error => exact Changes.refl s.store
  | ok result =>
    intro r hr
    apply (hspec result rfl r hr).imp id
    intro hdue claim hclaim
    -- a due report's claim has expired at the instant the worker has read, so it has by now
    unfold ScheduledReport.due at hdue
    rw [Bool.and_eq_true, Option.all_eq_true] at hdue
    have hexpired : claim.2 ≤ s.now - delay := of_decide_eq_true (hdue.2 claim hclaim)
    omega

theorem changes_deliver (s : ReportState) (i : Nat) (batch : Batch) (report : ScheduledReport)
    (failure : Option DeliveryFailure) :
    Changes (fun r => r.claimedBy batch.claimToken = true) s.store
      (s.deliver i batch report failure).store := by
  have hspec := ReportStore.changes_markScheduledReportSent s.store report.id batch.sentAt
    (nextReportDelivery batch.sentAt report.schedule) (some batch.claimToken)
  unfold ReportState.deliver
  cases failure with
  | some failure => exact Changes.refl s.store
  | none =>
    simp only
    split
    · rename_i store hstore
      intro r hr
      exact (hspec store hstore r hr).imp id claimedBy_of_completes
    · exact Changes.refl s.store

theorem changes_handle (s : ReportState) (i : Nat) (batch : Batch) (report : ScheduledReport)
    (failure : DeliveryFailure) :
    Changes (fun r => r.claimedBy batch.claimToken = true) s.store
      (s.handle i batch report failure).store := by
  have hspec := ReportStore.changes_markScheduledReportFailed s.store report.id batch.sentAt
    (scheduledReportRetryAt batch.sentAt report.consecutiveFailures report.jitterSeconds)
    failure.errorCode (some batch.claimToken)
  unfold ReportState.handle
  split
  · rename_i store hstore
    intro r hr
    exact (hspec store hstore r hr).imp id claimedBy_of_completes
  · exact Changes.refl s.store

/-- **Every step changes only what it may.** -/
theorem changes_reportStep (s : ReportState) (op : ReportOp) :
    Changes (Permitted s op) s.store (reportStep s op).store := by
  cases op with
  | claim delay leaseSeconds limit locked => exact changes_openBatch s delay leaseSeconds limit locked
  | deliver i failure =>
    apply ReportState.onBatch_cases (P := fun s' => Changes _ s.store s'.store) (Changes.refl s.store)
    intro batch hbatch
    split
    · intro r hr
      apply (changes_deliver s i batch _ failure r hr).imp id
      intro hclaimed
      exact ⟨batch, hbatch, hclaimed⟩
    · exact Changes.refl s.store
  | handle i =>
    apply ReportState.onBatch_cases (P := fun s' => Changes _ s.store s'.store) (Changes.refl s.store)
    intro batch hbatch
    split
    · intro r hr
      apply (changes_handle s i batch _ _ r hr).imp id
      intro hclaimed
      exact ⟨batch, hbatch, hclaimed⟩
    · exact Changes.refl s.store
  | abandon i =>
    apply ReportState.onBatch_cases (P := fun s' => Changes _ s.store s'.store) (Changes.refl s.store)
    intro batch _
    split
    · exact Changes.refl s.store
    · exact Changes.refl s.store
  | setEnabled reportId enabled =>
    exact changes_committed (ReportStore.changes_setScheduledReportEnabled s.store reportId enabled s.now)
  | delete reportId =>
    exact changes_committed (ReportStore.changes_deleteScheduledReport s.store reportId)
  | tick elapsed => exact Changes.refl s.store

/-! ## The batches -/

/-- What becomes of a batch in one step. -/
inductive BatchMove (s : ReportState) (batch : Batch) : Batch → Prop
  /-- An exception enters the handler, or the worker stops. -/
  | stage {stage : BatchStage} (hover : batch.over = false) (hraised : stage.isRaised = false) :
    BatchMove s batch { batch with stage := stage }
  /-- The iteration is over. -/
  | advance : BatchMove s batch (batch.advance .delivering)
  /-- The handler raises. -/
  | raised {failure : DeliveryFailure} {report : ScheduledReport} {rest : List ScheduledReport}
    {error : Error} (hstage : batch.stage = .handling failure) (hreports : batch.reports = report :: rest)
    (hrefused : s.store.markScheduledReportFailed report.id batch.sentAt
      (scheduledReportRetryAt batch.sentAt report.consecutiveFailures report.jitterSeconds)
      failure.errorCode (some batch.claimToken) = .error error) :
    BatchMove s batch (batch.advance (.raised error))

theorem BatchMove.claimToken_eq {s : ReportState} {batch batch' : Batch} (h : BatchMove s batch batch') :
    batch'.claimToken = batch.claimToken := by
  cases h with
  | stage _ _ => rfl
  | advance => rfl
  | raised _ _ _ => rfl

/-- What a step does to the batches: nothing, a new one, or a move of one. -/
inductive BatchesStep (s : ReportState) (op : ReportOp) (s' : ReportState) : Prop
  | same (hbatches : s'.batches = s.batches) (hnext : s'.nextToken = s.nextToken)
  | opened (observed : Int) (reports : List ScheduledReport)
    (hbatches : s'.batches = s.batches ++
      [⟨s.nextToken, observed, reports.map (·.id), [], reports, .delivering⟩])
    (hnext : s'.nextToken = s.nextToken + 1)
  | moved (i : Nat) (batch batch' : Batch) (hbatch : s.batches[i]? = some batch)
    (hmove : BatchMove s batch batch')
    (hhandle : batch'.stage.isRaised = true → op = .handle i)
    (hbatches : s'.batches = s.batches.set i batch') (hnext : s'.nextToken = s.nextToken)

/-- **The inversion of a step.** -/
theorem batchesStep (s : ReportState) (op : ReportOp) : BatchesStep s op (reportStep s op) := by
  cases op with
  | claim delay leaseSeconds limit locked =>
    show BatchesStep s _ (s.openBatch _ _ _ _)
    unfold ReportState.openBatch
    split
    · exact .opened _ _ rfl rfl
    · exact .same rfl rfl
  | deliver i failure =>
    apply ReportState.onBatch_cases (.same rfl rfl)
    intro batch hbatch
    split
    · rename_i report rest hstage hreports
      have hover : batch.over = false := by
        unfold Batch.over
        rw [hstage, hreports]
        rfl
      unfold ReportState.deliver
      split
      · exact .moved i batch _ hbatch (.stage hover rfl) Bool.noConfusion rfl rfl
      · split
        · exact .moved i batch _ hbatch .advance Bool.noConfusion rfl rfl
        · exact .moved i batch _ hbatch (.stage hover rfl) Bool.noConfusion rfl rfl
    · exact .same rfl rfl
  | handle i =>
    apply ReportState.onBatch_cases (.same rfl rfl)
    intro batch hbatch
    split
    · rename_i failure report rest hstage hreports
      unfold ReportState.handle
      split
      · exact .moved i batch _ hbatch .advance Bool.noConfusion rfl rfl
      · rename_i error hrefused
        exact .moved i batch _ hbatch (.raised hstage hreports hrefused) (fun _ => rfl) rfl rfl
    · exact .same rfl rfl
  | abandon i =>
    apply ReportState.onBatch_cases (.same rfl rfl)
    intro batch hbatch
    split
    · exact .same rfl rfl
    · rename_i hover
      exact .moved i batch _ hbatch (.stage (by simpa using hover) rfl) Bool.noConfusion rfl rfl
  | setEnabled reportId enabled =>
    show BatchesStep s _ (s.committed _)
    unfold ReportState.committed
    split
    · exact .same rfl rfl
    · exact .same rfl rfl
  | delete reportId =>
    show BatchesStep s _ (s.committed _)
    unfold ReportState.committed
    split
    · exact .same rfl rfl
    · exact .same rfl rfl
  | tick elapsed => exact .same rfl rfl

/-! ## Handlers that are accepted -/

/-- If the step is the handler of a report and others are left in the batch, the report still stores the
batch's token, and its counter has room. -/
def handlerAccepted (s : ReportState) : ReportOp → Bool
  | .handle i =>
    match s.batches[i]? with
    | some batch =>
      match batch.stage, batch.reports with
      | .handling _, report :: _ :: _ =>
        s.store.reports.any fun r => completes report.id (some batch.claimToken) r &&
          r.consecutiveFailures < ScheduledReport.maxConsecutiveFailures
      | _, _ => true
    | none => true
  | _ => true

theorem DeliveryFailure.errorCode_valid (failure : DeliveryFailure) :
    failure.errorCode ≠ "" ∧ failure.errorCode.length ≤ 64 := by
  cases failure <;> decide

/-- An accepted handler raises for the last report only. -/
theorem rest_eq_nil_of_refused {s : ReportState} {i : Nat} {batch : Batch} {report : ScheduledReport}
    {rest : List ScheduledReport} {failure : DeliveryFailure} {error : Error}
    (hbatch : s.batches[i]? = some batch) (hstage : batch.stage = .handling failure)
    (hreports : batch.reports = report :: rest)
    (hrefused : s.store.markScheduledReportFailed report.id batch.sentAt
      (scheduledReportRetryAt batch.sentAt report.consecutiveFailures report.jitterSeconds)
      failure.errorCode (some batch.claimToken) = .error error)
    (hguard : handlerAccepted s (.handle i) = true) : rest = [] := by
  cases rest with
  | nil => rfl
  | cons next rest =>
    simp only [handlerAccepted, hbatch, hstage, hreports, List.any_eq_true, Bool.and_eq_true,
      decide_eq_true_eq] at hguard
    obtain ⟨store', hstore⟩ :=
      (ReportStore.markScheduledReportFailed_eq_ok_iff s.store failure.errorCode_valid).mpr hguard
    rw [hrefused] at hstore
    cases hstore

/-! ## The invariant -/

/-- A batch has attempted what it claimed, up to what is left, and nothing is left if it has raised. -/
structure Batch.Ok (batch : Batch) : Prop where
  claimed_eq : batch.claimed = batch.attempted ++ batch.reports.map (·.id)
  isolated : batch.stage.isRaised = true → batch.reports = []

theorem Batch.Ok.attempted_eq {batch : Batch} (h : batch.Ok) (hover : batch.over = true) :
    batch.attempted = batch.claimed := by
  have hnone : batch.reports = [] := by
    unfold Batch.over at hover
    split at hover
    · exact List.isEmpty_iff.mp hover
    · rename_i error hraised
      exact h.isolated (by rw [hraised]; rfl)
    · cases hover
  rw [h.claimed_eq, hnone, List.map_nil, List.append_nil]

/-- An iteration keeps the account of the reports. -/
theorem Batch.claimed_advance {batch : Batch} (h : batch.Ok) (stage : BatchStage) :
    (batch.advance stage).claimed =
      (batch.advance stage).attempted ++ (batch.advance stage).reports.map (·.id) := by
  show batch.claimed =
    batch.attempted ++ (batch.reports.take 1).map (·.id) ++ batch.reports.tail.map (·.id)
  rw [h.claimed_eq, List.append_assoc, ← List.map_append]
  cases batch.reports with
  | nil => rfl
  | cons report rest => rfl

theorem Batch.Ok.move {s : ReportState} {i : Nat} {batch batch' : Batch} (h : batch.Ok)
    (hbatch : s.batches[i]? = some batch) (hmove : BatchMove s batch batch')
    (hguard : batch'.stage.isRaised = true → handlerAccepted s (.handle i) = true) : batch'.Ok := by
  cases hmove with
  | stage _ hraised =>
    refine ⟨h.claimed_eq, ?_⟩
    intro hstage
    rw [hraised] at hstage
    cases hstage
  | advance => exact ⟨Batch.claimed_advance h _, Bool.noConfusion⟩
  | raised hstage hreports hrefused =>
    refine ⟨Batch.claimed_advance h _, ?_⟩
    intro _
    show batch.reports.tail = []
    rw [hreports]
    exact rest_eq_nil_of_refused hbatch hstage hreports hrefused (hguard rfl)

/-- The batches have tokens of their own, and all are in order. -/
structure BatchesOk (s : ReportState) : Prop where
  tokens : CountedKeys Batch.claimToken s.batches s.nextToken
  ok : ∀ batch ∈ s.batches, batch.Ok

/-- One step whose handler is accepted keeps the batches in order. -/
theorem BatchesOk.step {s : ReportState} (h : BatchesOk s) {op : ReportOp}
    (hguard : handlerAccepted s op = true) : BatchesOk (reportStep s op) := by
  cases batchesStep s op with
  | same hbatches hnext =>
    refine ⟨?_, ?_⟩
    · rw [hbatches, hnext]
      exact h.tokens
    · rw [hbatches]
      exact h.ok
  | opened observed reports hbatches hnext =>
    refine ⟨?_, ?_⟩
    · rw [hbatches, hnext]
      exact h.tokens.append rfl
    · rw [hbatches]
      intro batch hmem
      rcases List.mem_append.mp hmem with hold | hnew
      · exact h.ok batch hold
      · rw [List.mem_singleton.mp hnew]
        exact ⟨rfl, Bool.noConfusion⟩
  | moved i batch batch' hbatch hmove hhandle hbatches hnext =>
    refine ⟨?_, ?_⟩
    · rw [hbatches, hnext]
      exact h.tokens.set hbatch hmove.claimToken_eq
    · rw [hbatches]
      intro other hmem
      rcases List.mem_or_eq_of_mem_set hmem with hold | rfl
      · exact h.ok other hold
      · apply (h.ok batch (List.mem_of_getElem? hbatch)).move hbatch hmove
        intro hraised
        rw [← hhandle hraised]
        exact hguard

/-! ## Claims -/

/-- The worker of a batch holds an unexpired claim on a report. -/
def Holds (s : ReportState) (batch : Batch) (reportId : Nat) : Prop :=
  ∃ r ∈ s.store.reports, r.id = reportId ∧ ∃ until_, r.claim = some (batch.claimToken, until_) ∧
    s.now < until_

/-- What is asked of a state: one worker at most holds an unexpired claim on a report, whatever comes next
changes only the reports it may, and a batch that is over has attempted all it claimed. -/
structure ClaimsSafe (s : ReportState) : Prop where
  exclusive : ∀ reportId, ∀ b ∈ s.batches, ∀ b' ∈ s.batches,
    Holds s b reportId → Holds s b' reportId → b = b'
  permitted : ∀ op, Changes (Permitted s op) s.store (reportStep s op).store
  attempted : ∀ b ∈ s.batches, b.over = true → b.attempted = b.claimed

theorem BatchesOk.claimsSafe {s : ReportState} (h : BatchesOk s) : ClaimsSafe s where
  exclusive := by
    rintro reportId b hb b' hb' ⟨r, hr, hid, until_, hclaim, _⟩ ⟨r', hr', hid', until', hclaim', _⟩
    obtain rfl : r = r' := s.store.primaryKey.eq hr hr' (hid.trans hid'.symm)
    rw [hclaim] at hclaim'
    have htoken : b.claimToken = b'.claimToken := (Prod.mk.inj (Option.some.inj hclaim')).1
    exact h.tokens.unique.eq hb hb' htoken
  permitted := changes_reportStep s
  attempted := by
    intro b hb hover
    exact (h.ok b hb).attempted_eq hover

/-- **Claims are exclusive and failures are isolated.** In every run of workers and owners, from any table,
whose handlers are accepted while reports are left: at most one worker holds an unexpired claim on a
report, a claim is only taken over when it has expired, a completion changes a report only if its token is
the stored one, and every batch that is over has attempted all of its reports. -/
theorem claims_run (store : ReportStore) (now : Int) (nextToken : Nat) (ops : List ReportOp)
    (haccepted : Guarded reportStep (fun s op => handlerAccepted s op = true)
      { store, now, nextToken } ops) :
    ClaimsSafe (run reportStep { store, now, nextToken } ops) := by
  have hstart : BatchesOk { store, now, nextToken } :=
    ⟨CountedKeys.nil _ _, fun _ hmem => (nomatch hmem)⟩
  have hrun := Library.guarded_invariant BatchesOk (fun _ _ h hguard => h.step hguard) hstart haccepted
  exact hrun.claimsSafe

/-- Two daily reports that are due. -/
def twoReports : ReportStore where
  reports := [1, 2].map fun id =>
    { id
      schedule :=
        { frequency := .daily, clock := ⟨0, Nat.succ_pos 1439⟩, weekday := ⟨0, Nat.succ_pos 6⟩, monthDay := .first }
      rangePreset := .previousPeriod
      jitterSeconds := 0
      enabled := true
      nextSendAt := some 0
      lastSentAt := none
      lastFailedAt := none
      lastErrorCode := ""
      consecutiveFailures := 0
      claim := none }
  primaryKey := by
    show [1, 2].Nodup
    decide

/-- The first report fails and is retried, the second one is sent. -/
def failedThenSent : List ReportOp :=
  [.claim 0 1800 25 [], .deliver 0 (some .unavailable), .handle 0, .deliver 0 none]

/-- The owner switches the first report off while it is sent. -/
def switchedOff : List ReportOp :=
  [.claim 0 1800 25 [], .setEnabled 1 false, .deliver 0 none, .handle 0]

theorem claims_failedThenSent :
    ClaimsSafe (run reportStep { store := twoReports, now := 0 } failedThenSent) :=
  claims_run twoReports 0 0 failedThenSent (by decide +kernel)

/-- **A lost claim ends the batch.** The completion of the report that was switched off raises, its handler
raises too, and the second report is not attempted. -/
theorem claims_switchedOff :
    ¬ ∀ (store : ReportStore) (now : Int) (nextToken : Nat) (ops : List ReportOp),
      ClaimsSafe (run reportStep { store, now, nextToken } ops) := by
  intro hall
  have hattempted := (hall twoReports 0 0 switchedOff).attempted
  revert hattempted
  decide +kernel

end Dayfinch
