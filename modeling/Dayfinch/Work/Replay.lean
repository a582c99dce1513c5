/-
# Dayfinch.Work.Replay -- when is retrying an accepted heartbeat harmless

An agent that lost the response to a heartbeat sends it again with the same event id. The transaction
recognises the event by its receipt and answers with the recorded session, but only after the lock,
role, project, limit, task and policy checks of a new heartbeat: what has changed since the first
delivery can refuse the retry. And a compacted receipt is not recognised at all.

`Admissible` spells those checks out as conditions on the database. A retry is answered as a duplicate
exactly when the receipt is still stored and the retry is admissible.
-/
import Dayfinch.Work.SyncEffect

namespace Dayfinch

open Library (run bind_eq_ok)

/-! ## The checks as conditions -/

/-- The owner of the call's device. -/
def SyncCall.owner (db : Database) (call : SyncCall) : Option User :=
  call.device.ownerUserId.bind db.getUser

/-- The project the call is for, before the task settles it. -/
def SyncCall.project (call : SyncCall) : Option Nat :=
  call.selectedProjectId <|> call.device.projectId

/-- The date on the clock of the observation, or of the server when the call has none. -/
def SyncCall.workDate (now : Int) (call : SyncCall) : Int :=
  (call.observedAt.getD (Datetime.ofInstant now)).date

/-- The task of the call, if it has one, is active and in the call's project. -/
def TaskFits (db : Database) (call : SyncCall) : Prop :=
  ∀ taskId, call.taskId = some taskId → ∃ task, db.getTask taskId = some task ∧
    task.status = .active ∧ (call.project.isSome → call.project = some task.projectId)

/-- A member has not used up a daily or weekly limit. -/
structure WithinLimits (now : Int) (db : Database) (owner : User) (workDate : Int) : Prop where
  daily : owner.dailyLimitMinutes ≠ 0 →
    trackedDaily db now owner.id workDate < minutes owner.dailyLimitMinutes
  weekly : owner.weeklyLimitMinutes ≠ 0 →
    trackedWeekly db now owner.id workDate < minutes owner.weeklyLimitMinutes

/-- The owner may track the call's project: the project is open, and a member works in or manages
it. -/
def ProjectOpenTo (db : Database) (call : SyncCall) (owner : User) : Prop :=
  ∃ project, call.project.bind db.getProject = some project ∧ project.enabled = true ∧
    (owner.role = .member → canTrack (db.projectMemberRole project.id owner.id) = true)

/-- What an active heartbeat needs. -/
structure MayTrack (now : Int) (db : Database) (call : SyncCall) (owner : User) : Prop where
  unlocked : ∀ u, call.device.ownerUserId = some u → db.isPeriodLocked u (call.workDate now) = false
  role : owner.role ≠ .viewer
  project : ProjectOpenTo db call owner
  limits : owner.role = .member → WithinLimits now db owner (call.workDate now)
  policy : call.device.trackerKind ≠ .desktop → db.effectiveAllowedApps owner.id ≠ .desktopOnly

/-- **What a heartbeat needs to pass the checks**, as conditions on the database. -/
structure Admissible (now : Int) (db : Database) (call : SyncCall) : Prop where
  aware : (call.observedAt.getD (Datetime.ofInstant now)).utcoffset.isSome
  task : TaskFits db call
  active : call.status = some .active →
    ∃ owner, call.owner db = some owner ∧ MayTrack now db call owner

theorem checkTask_isOk {db : Database} {call : SyncCall} :
    (∃ projectId, checkTask db call call.project = .ok projectId) ↔ TaskFits db call := by
  unfold checkTask TaskFits
  cases htask : call.taskId with
  | none => simp
  | some taskId =>
    cases hget : db.getTask taskId with
    | none => simp [hget]
    | some task =>
      simp only [bind_eq_ok, raiseIf_eq_ok, exists_and_left, Option.some.injEq, forall_eq',
        hget, exists_eq_left', not_not, not_and_or, ← imp_iff_not_or, exists_const, pure,
        Except.pure, Except.ok.injEq, exists_eq', and_true]

theorem checkLimits_isOk {now : Int} {db : Database} {owner : User} {workDate : Int} :
    checkLimits db now owner workDate = .ok () ↔ WithinLimits now db owner workDate := by
  unfold checkLimits
  constructor
  · intro h
    obtain ⟨_, hdaily, hweekly⟩ := bind_eq_ok.mp h
    rw [raiseIf_eq_ok, not_and, not_le] at hdaily hweekly
    exact ⟨hdaily, hweekly⟩
  · rintro ⟨hdaily, hweekly⟩
    refine bind_eq_ok.mpr ⟨(), ?_, ?_⟩ <;> rw [raiseIf_eq_ok, not_and, not_le] <;> assumption

theorem authorizeTracking_isOk {db : Database} {call : SyncCall} {owner : Option User}
    {user : User} :
    authorizeTracking db owner call.project = .ok user ↔
      owner = some user ∧ ProjectOpenTo db call user := by
  unfold authorizeTracking ProjectOpenTo
  cases owner with
  | none => simp
  | some owner =>
    cases hproject : call.project.bind db.getProject with
    | none => simp
    | some project =>
      simp only [bind_eq_ok, raiseIf_eq_ok, Option.some.injEq, exists_eq_left',
        Bool.not_eq_false, not_and, exists_const, pure, Except.pure, Except.ok.injEq]
      constructor
      · rintro ⟨henabled, hrole, rfl⟩
        exact ⟨rfl, henabled, hrole⟩
      · rintro ⟨rfl, henabled, hrole⟩
        exact ⟨henabled, hrole, rfl⟩

theorem admitActive_isOk {now : Int} {db : Database} {call : SyncCall} :
    admitActive now db call .active (call.owner db) call.project (call.workDate now) = .ok () ↔
      ∃ owner, call.owner db = some owner ∧
        (∀ u, call.device.ownerUserId = some u →
          db.isPeriodLocked u (call.workDate now) = false) ∧
        owner.role ≠ .viewer ∧ ProjectOpenTo db call owner ∧
        (owner.role = .member → WithinLimits now db owner (call.workDate now)) := by
  unfold admitActive
  rw [if_neg (not_not.mpr rfl)]
  have hlock : (¬ (call.device.ownerUserId.any fun u => db.isPeriodLocked u (call.workDate now)) =
      true) ↔ ∀ u, call.device.ownerUserId = some u →
        db.isPeriodLocked u (call.workDate now) = false := by
    cases call.device.ownerUserId <;> simp
  constructor
  · intro h
    obtain ⟨_, hunlocked, h⟩ := bind_eq_ok.mp h
    obtain ⟨_, hviewer, h⟩ := bind_eq_ok.mp h
    obtain ⟨owner, hauthorized, hlimits⟩ := bind_eq_ok.mp h
    rw [raiseIf_eq_ok] at hunlocked hviewer
    obtain ⟨howner, hproject⟩ := authorizeTracking_isOk.mp hauthorized
    refine ⟨owner, howner, hlock.mp hunlocked, ?_, hproject, fun hmember => ?_⟩
    · simpa [howner] using hviewer
    · rw [if_pos hmember] at hlimits
      exact checkLimits_isOk.mp hlimits
  · rintro ⟨owner, howner, hunlocked, hviewer, hproject, hlimits⟩
    refine bind_eq_ok.mpr ⟨(), raiseIf_eq_ok.mpr (hlock.mpr hunlocked), bind_eq_ok.mpr ⟨(), ?_,
      bind_eq_ok.mpr ⟨owner, authorizeTracking_isOk.mpr ⟨howner, hproject⟩, ?_⟩⟩⟩
    · rw [raiseIf_eq_ok, howner]
      simpa using hviewer
    · by_cases hmember : owner.role = .member
      · rw [if_pos hmember]
        exact checkLimits_isOk.mpr (hlimits hmember)
      · rw [if_neg hmember]

theorem checkDesktopPolicy_isOk {db : Database} {call : SyncCall} {adm : Admission} :
    checkDesktopPolicy db call adm = .ok () ↔ ∀ owner, adm.owner = some owner →
      adm.status = .active → call.device.trackerKind ≠ .desktop →
        db.effectiveAllowedApps owner.id ≠ .desktopOnly := by
  unfold checkDesktopPolicy
  cases adm.owner with
  | none => simp
  | some owner => simp

/-- The checks before the duplicate check pass exactly when the call is admissible. -/
theorem admissible_iff {now : Int} {db : Database} {call : SyncCall} {status : SessionStatus}
    (hstatus : call.status = some status) :
    (∃ adm, admitSync now db call status = .ok adm ∧ checkDesktopPolicy db call adm = .ok ()) ↔
      Admissible now db call := by
  constructor
  · rintro ⟨adm, hadm, hpolicy⟩
    obtain ⟨rfl, howner, hactive, htask, hobserved⟩ := admitSync_eq_ok.mp hadm
    refine ⟨?_, checkTask_isOk.mp ⟨_, htask⟩, fun hst => ?_⟩
    · rw [Datetime.toUtc?, Option.map_eq_some_iff] at hobserved
      obtain ⟨offset, hoffset, _⟩ := hobserved
      rw [hoffset]
      rfl
    · have hadmActive : adm.status = .active := Option.some.inj (hstatus.symm.trans hst)
      rw [hadmActive, howner] at hactive
      obtain ⟨owner, hown, hunlocked, hviewer, hproject, hlimits⟩ := admitActive_isOk.mp hactive
      refine ⟨owner, hown, hunlocked, hviewer, hproject, hlimits, ?_⟩
      exact checkDesktopPolicy_isOk.mp hpolicy owner (howner.trans hown) hadmActive
  · rintro ⟨haware, htask, hactive⟩
    obtain ⟨offset, hoffset⟩ := Option.isSome_iff_exists.mp haware
    obtain ⟨projectId, hproject⟩ := checkTask_isOk.mpr htask
    refine ⟨{ status, owner := call.owner db, projectId,
              observed := (call.observedAt.getD (Datetime.ofInstant now)).wall - offset },
      admitSync_eq_ok.mpr ⟨rfl, rfl, ?_, hproject, ?_⟩, checkDesktopPolicy_isOk.mpr ?_⟩
    · by_cases hst : status = .active
      · obtain ⟨owner, hown, hmay⟩ := hactive (hstatus.trans (congrArg some hst))
        rw [hst]
        exact admitActive_isOk.mpr
          ⟨owner, hown, hmay.unlocked, hmay.role, hmay.project, hmay.limits⟩
      · exact if_pos hst
    · rw [Datetime.toUtc?, hoffset]
      rfl
    · intro owner hown hst
      obtain ⟨owner', hown', hmay⟩ := hactive (hstatus.trans (congrArg some hst))
      obtain rfl : owner' = owner := Option.some.inj (hown'.symm.trans hown)
      exact hmay.policy

/-! ## Retrying -/

/-- The call succeeds, leaves sessions, segments and receipts as they were, and answers with the
session recorded for the event. -/
def ReplaysAsDuplicate (tie : AgentStateEvent → Nat) (now : Int) (db : Database) (call : SyncCall) :
    Prop :=
  ∃ db' row, syncWorkSession tie now db call = .ok (db', row) ∧
    db'.workSessions = db.workSessions ∧ db'.segments = db.segments ∧
    db'.agentStateEvents = db.agentStateEvents ∧
    row = (duplicateReceipt db call).bind fun receipt => receipt.sessionId.bind db.getWorkSession

/-- **A retry is answered as a duplicate exactly when** its receipt is stored and it is admissible. -/
theorem replaysAsDuplicate_iff {tie : AgentStateEvent → Nat} {now : Int} {db : Database}
    {call : SyncCall} (hstatus : call.status.isSome) (hevent : call.eventId.isSome) :
    ReplaysAsDuplicate tie now db call ↔
      (duplicateReceipt db call).isSome ∧ Admissible now db call := by
  obtain ⟨status, hst⟩ := Option.isSome_iff_exists.mp hstatus
  constructor
  · rintro ⟨db', row, hsync, _, _, hreceipts, _⟩
    rw [syncWorkSession, hst] at hsync
    obtain ⟨adm, hadm, htransaction⟩ := bind_eq_ok.mp hsync
    obtain ⟨_, hpolicy, hevents⟩ := bind_eq_ok.mp htransaction
    refine ⟨?_, (admissible_iff hst).mp ⟨adm, hadm, hpolicy⟩⟩
    cases hdup : duplicateReceipt db call with
    | some receipt => rfl
    | none =>
      -- a new event leaves a receipt, so the receipts would not be as they were
      rw [hdup] at hevents
      obtain ⟨_, sessionId, hnew⟩ := (acceptEvent_effect hevents).receipts
      obtain ⟨eventId, heq⟩ := Option.isSome_iff_exists.mp hevent
      rw [hreceipts, heq] at hnew
      simp at hnew
  · rintro ⟨hdup, hadmissible⟩
    obtain ⟨receipt, hreceipt⟩ := Option.isSome_iff_exists.mp hdup
    obtain ⟨adm, hadm, hpolicy⟩ := (admissible_iff hst).mpr hadmissible
    refine ⟨db, receipt.sessionId.bind db.getWorkSession, ?_, rfl, rfl, rfl, ?_⟩
    · rw [syncWorkSession, hst]
      refine bind_eq_ok.mpr ⟨adm, hadm, bind_eq_ok.mpr ⟨(), hpolicy, ?_⟩⟩
      rw [hreceipt]
      rfl
    · rw [hreceipt]
      rfl

/-! ## Receipts over a run -/

/-- Every operation but a compaction keeps the receipts, and adds to them at the end. -/
theorem step_receipts (db : Database) (op : WorkOp) (hop : ¬ op.IsCompaction) :
    ∃ more, (step db op).agentStateEvents = db.agentStateEvents ++ more := by
  by_cases hsync : op.IsSync
  · cases op with
    | sync tie now call =>
      rcases step_sync db tie now call with hsame | ⟨adm, _, _, hacc, _⟩
      · exact ⟨[], by rw [hsame, List.append_nil]⟩
      · obtain ⟨_, sessionId, hreceipts⟩ := hacc.receipts
        exact ⟨_, hreceipts⟩
    | _ => cases hsync
  · refine ⟨[], ?_⟩
    rw [List.append_nil]
    refine step_preserves (P := fun db' => db'.agentStateEvents = db.agentStateEvents) rfl ?_
    intro db' hrun
    rcases adminEffect db op hsync hop db' hrun with h | ⟨_, _, h | ⟨c, _, h⟩⟩
    · exact h.receipts
    · exact h.receipts
    · exact h.receipts

theorem run_receipts (db : Database) (ops : List WorkOp) (hops : ∀ op ∈ ops, ¬ op.IsCompaction) :
    ∃ more, (run step db ops).agentStateEvents = db.agentStateEvents ++ more := by
  induction ops generalizing db with
  | nil => exact ⟨[], (List.append_nil _).symm⟩
  | cons op ops ih =>
    obtain ⟨more, hmore⟩ := step_receipts db op (hops op List.mem_cons_self)
    obtain ⟨rest, hrest⟩ := ih (step db op) fun o ho => hops o (List.mem_cons_of_mem op ho)
    exact ⟨more ++ rest, by rw [Library.run_cons, hrest, hmore, List.append_assoc]⟩

/-- A stored receipt is found again as long as receipts are only added. -/
theorem duplicateReceipt_append {db db' : Database} {more : List AgentStateEvent} {call call' : SyncCall}
    {receipt : AgentStateEvent} (h : duplicateReceipt db call = some receipt)
    (hmore : db'.agentStateEvents = db.agentStateEvents ++ more)
    (hdevice : call'.device.id = call.device.id) (hevent : call'.eventId = call.eventId) :
    duplicateReceipt db' call' = some receipt := by
  unfold duplicateReceipt at h ⊢
  obtain ⟨eventId, heq, hfind⟩ := Option.bind_eq_some_iff.mp h
  rw [hevent, heq, hmore, hdevice]
  show (db.agentStateEvents ++ more).find? _ = _
  rw [List.find?_append, hfind]
  rfl

/-- **Retrying an accepted event.** In a reachable state an event is stored as `receipt`; any further
operations follow, and the event is delivered again, from its device as it then is. The receipt is
still the one found unless a compaction ran in between; and the retry is answered as a duplicate
exactly when a receipt of the event is found and the retry is admissible. -/
theorem retry_replaysAsDuplicate (db : Database) (before after : List WorkOp)
    (tie : AgentStateEvent → Nat) (now : Int) (call : SyncCall) (device : Device)
    (receipt : AgentStateEvent) (hstatus : call.status.isSome)
    (haccepted : duplicateReceipt (run step db.withoutWork before) call = some receipt)
    (hdevice : device.id = call.device.id) :
    ((∀ op ∈ after, ¬ op.IsCompaction) →
      duplicateReceipt (run step db.withoutWork (before ++ after)) { call with device } =
        some receipt) ∧
    (ReplaysAsDuplicate tie now (run step db.withoutWork (before ++ after)) { call with device } ↔
      (duplicateReceipt (run step db.withoutWork (before ++ after)) { call with device }).isSome ∧
        Admissible now (run step db.withoutWork (before ++ after)) { call with device }) := by
  have hevent : call.eventId.isSome := by
    cases heq : call.eventId with
    | none => rw [duplicateReceipt, heq] at haccepted; cases haccepted
    | some eventId => rfl
  refine ⟨fun hafter => ?_, replaysAsDuplicate_iff hstatus hevent⟩
  obtain ⟨more, hmore⟩ := run_receipts (run step db.withoutWork before) after hafter
  rw [← Library.run_append] at hmore
  exact duplicateReceipt_append haccepted hmore hdevice rfl

/-- The response to the laptop's first heartbeat is lost; it is retried after the user has paused. -/
theorem retry_replaysAsDuplicate_office :
    ReplaysAsDuplicate (fun _ => 0) (minutes 602)
      (run step office.withoutWork
        ([deliver (minutes 600) (pressed laptop 1 .active (minutes 600))] ++
          [deliver (minutes 601) (pressed laptop 2 .paused (minutes 601))]))
      (pressed laptop 1 .active (minutes 600)) := by
  have h := retry_replaysAsDuplicate office
    [deliver (minutes 600) (pressed laptop 1 .active (minutes 600))]
    [deliver (minutes 601) (pressed laptop 2 .paused (minutes 601))]
    (fun _ => 0) (minutes 602) (pressed laptop 1 .active (minutes 600)) laptop
    { id := 1, deviceId := 1, observedAt := minutes 600, receivedAt := minutes 600,
      status := .active, taskId := none, projectId := some 1, note := "", idleSeconds := 0,
      heartbeatIntervalSeconds := 60, sessionId := some 0 } rfl (by decide +kernel) rfl
  have hstatus : (pressed laptop 1 .active (minutes 600)).status = some .active := rfl
  refine h.2.mpr ⟨by decide +kernel, (admissible_iff hstatus).mp ?_⟩
  exact ⟨{ status := .active, owner := office.getUser 1, projectId := some 1,
           observed := minutes 600 }, by decide +kernel, by decide +kernel⟩

/-! ## A retry that is refused -/

/-- Between the first delivery and the retry the project is archived: the retry is refused, although
the event was accepted and its receipt is stored. -/
theorem retry_refused :
    ¬ ∀ (db : Database) (before after : List WorkOp) (tie : AgentStateEvent → Nat) (now : Int)
        (call : SyncCall) (device : Device), call.status.isSome →
      (duplicateReceipt (run step db.withoutWork before) call).isSome →
      device.id = call.device.id →
      ReplaysAsDuplicate tie now (run step db.withoutWork (before ++ after)) { call with device } := by
  intro h
  obtain ⟨db', row, hsync, _⟩ := h office
    [deliver (minutes 600) (pressed laptop 1 .active (minutes 600))]
    [.setProjectEnabled (minutes 601) 1 false] (fun _ => 0) (minutes 602)
    (pressed laptop 1 .active (minutes 600)) { laptop with projectId := none } rfl
    (by decide +kernel) rfl
  have hrefused : (syncWorkSession (fun _ => 0) (minutes 602)
      (run step office.withoutWork
        ([deliver (minutes 600) (pressed laptop 1 .active (minutes 600))] ++
          [.setProjectEnabled (minutes 601) 1 false]))
      { pressed laptop 1 .active (minutes 600) with
        device := { laptop with projectId := none } }).isOk = false := by decide +kernel
  rw [hsync] at hrefused
  cases hrefused

end Dayfinch
