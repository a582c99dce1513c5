/-
# Dayfinch.Work.Rejections -- what a rejected timer request leaves behind

A request of the web timer or an event of the field timer that is answered with an error should leave
sessions, segments, breaks and receipts alone. A call of `sync_work_session` does: it is one
transaction. But stopping, pausing and resuming in the browser commit a break first and call
`sync_work_session` afterwards. `CarriesOn` spells out when that call goes through for the running
session; a request is rejected with a change exactly when its break statement changed something and
the call does not go through.
-/
import Dayfinch.Work.Stops

namespace Dayfinch

open Library (run bind_eq_ok updateWhere)

/-! ## When a call without an event id goes through -/

/-- No session of the owner on another device stands in the way of a call at `observed`. -/
def OthersYield (db : Database) (call : SyncCall) (observed : Int) : Prop :=
  ∀ other, otherSession db call = some other → call.transition = true ∧ other.startedAt ≤ observed

theorem takeOver_isOk {db : Database} {call : SyncCall} {status : SessionStatus} {observed : Int}
    (hstatus : status ≠ .stopped) :
    (∃ db', takeOver db call status observed = .ok db') ↔ OthersYield db call observed := by
  unfold takeOver OthersYield
  rw [if_neg hstatus]
  cases hother : otherSession db call with
  | none =>
    refine iff_of_true ⟨db, rfl⟩ fun other hsome => ?_
    cases hsome
  | some other =>
    dsimp only
    constructor
    · rintro ⟨db', hdb'⟩
      obtain ⟨_, htransition, hdb'⟩ := bind_eq_ok.mp hdb'
      obtain ⟨_, hnewer, _⟩ := bind_eq_ok.mp hdb'
      rw [raiseIf_eq_ok] at htransition hnewer
      intro other' hsome
      obtain rfl := Option.some.inj hsome
      exact ⟨by simpa using htransition, not_lt.mp hnewer⟩
    · intro hyields
      obtain ⟨htransition, hnewer⟩ := hyields other rfl
      refine ⟨stopSession db other.id observed, bind_eq_ok.mpr ⟨(), raiseIf_eq_ok.mpr ?_,
        bind_eq_ok.mpr ⟨(), raiseIf_eq_ok.mpr (not_lt.mpr hnewer), rfl⟩⟩⟩
      simp [htransition]

/-- A session that is live after another was stopped was live before. -/
theorem live_of_mem_stopSession {db : Database} {sessionId : Nat} {endedAt : Int} {ws : WorkSession}
    (hws : ws ∈ (stopSession db sessionId endedAt).workSessions) (hlive : ws.live) :
    ws ∈ db.workSessions ∧ ws.id ≠ sessionId := by
  rcases Library.mem_updateWhere_cases hws with ⟨hold, hne⟩ | ⟨_, _, _, rfl⟩
  · exact ⟨hold, by simpa using hne⟩
  · cases hlive

/-- After a takeover the owner has no live session but on the device of the call. -/
theorem takeOver_clears {db db' : Database} (h : StoreInvariant db) {call : SyncCall}
    {status : SessionStatus} {observed : Int} (hstatus : status ≠ .stopped)
    (hdb' : takeOver db call status observed = .ok db') {ws : WorkSession}
    (hws : ws ∈ db'.workSessions) (hlive : ws.live) :
    ws ∈ db.workSessions ∧ (ws.deviceId ≠ call.device.id → ws.userId = call.device.ownerUserId →
      call.device.ownerUserId = none) := by
  unfold takeOver at hdb'
  rw [if_neg hstatus] at hdb'
  have hfound : ∀ userId, call.device.ownerUserId = some userId → ws ∈ db.workSessions →
      ws.deviceId ≠ call.device.id → ws.userId = call.device.ownerUserId →
        ∃ other, otherSession db call = some other ∧ other = ws := by
    intro userId howner hold hdevice huser
    rw [howner] at huser
    cases hother : otherSession db call with
    | none =>
      unfold otherSession at hother
      rw [howner] at hother
      have hnone := Library.latestBy_filter_eq_none.mp hother ws hold
      simp [huser, hdevice, hlive] at hnone
    | some other =>
      obtain ⟨hm, hl, _, u, hu, hou⟩ := otherSession_mem hother
      rw [howner, Option.some.injEq] at hu
      subst hu
      exact ⟨other, rfl, h.oneLivePerUser other hm ws hold hl hlive (hou.trans huser.symm)
        (by rw [hou]; rfl)⟩
  cases hother : otherSession db call with
  | none =>
    rw [hother] at hdb'
    cases hdb'
    refine ⟨hws, fun hdevice huser => ?_⟩
    cases howner : call.device.ownerUserId with
    | none => rfl
    | some userId =>
      obtain ⟨_, hsome, _⟩ := hfound userId howner hws hdevice huser
      rw [hother] at hsome
      cases hsome
  | some other =>
    simp only [hother] at hdb'
    obtain ⟨_, _, hdb'⟩ := bind_eq_ok.mp hdb'
    obtain ⟨_, _, hdb'⟩ := bind_eq_ok.mp hdb'
    cases hdb'
    obtain ⟨hold, hne⟩ := live_of_mem_stopSession hws hlive
    refine ⟨hold, fun hdevice huser => ?_⟩
    cases howner : call.device.ownerUserId with
    | none => rfl
    | some userId =>
      obtain ⟨other', hsome, rfl⟩ := hfound userId howner hold hdevice huser
      rw [hother, Option.some.injEq] at hsome
      exact absurd (congrArg WorkSession.id hsome).symm hne

/-- A takeover leaves the tables a new session refers to. -/
theorem takeOver_references {db db' : Database} {call : SyncCall} {status : SessionStatus}
    {observed : Int} (hdb' : takeOver db call status observed = .ok db') (deviceId : Nat)
    (userId projectId taskId : Option Nat) :
    referencesExist db' deviceId userId projectId taskId =
      referencesExist db deviceId userId projectId taskId := by
  unfold takeOver at hdb'
  split at hdb'
  · cases hdb'
    rfl
  · split at hdb'
    · cases hdb'
      rfl
    · obtain ⟨_, _, hdb'⟩ := bind_eq_ok.mp hdb'
      obtain ⟨_, _, hdb'⟩ := bind_eq_ok.mp hdb'
      cases hdb'
      rfl

/-- A new session can be opened in a free slot when the rows it refers to exist. -/
theorem openSession_isOk {now observed : Int} {db : Database} {call : SyncCall} {adm : Admission}
    (hslot : liveSlotTaken db (newWorkSession now db call adm observed) = false) :
    (∃ result, openSession now db call adm observed = .ok result) ↔
      referencesExist db call.device.id call.device.ownerUserId adm.projectId call.taskId = true := by
  have hinsert : (∃ db', insertWorkSession db (newWorkSession now db call adm observed) = .ok db') ↔
      referencesExist db call.device.id call.device.ownerUserId adm.projectId call.taskId = true := by
    unfold insertWorkSession
    by_cases hexist : referencesExist db call.device.id call.device.ownerUserId adm.projectId
        call.taskId = true
    · have hfree : ¬ liveSlotTaken db (newWorkSession now db call adm observed) = true := by
        simp [hslot]
      have hfound : ¬ referencesExist db (newWorkSession now db call adm observed).deviceId
          (newWorkSession now db call adm observed).userId
          (newWorkSession now db call adm observed).projectId
          (newWorkSession now db call adm observed).taskId = false := by
        intro hmissing
        have hboth : true = false := hexist.symm.trans hmissing
        cases hboth
      rw [if_neg hfound, if_neg hfree]
      exact iff_of_true ⟨_, rfl⟩ hexist
    · rw [if_pos (Bool.not_eq_true _ ▸ hexist)]
      refine iff_of_false ?_ hexist
      rintro ⟨db', hdb'⟩
      cases hdb'
  rw [← hinsert]
  unfold openSession
  constructor
  · rintro ⟨result, hresult⟩
    obtain ⟨db', hdb', _⟩ := bind_eq_ok.mp hresult
    exact ⟨db', hdb'⟩
  · rintro ⟨db', hdb'⟩
    exact ⟨_, bind_eq_ok.mpr ⟨db', hdb', rfl⟩⟩

/-- **The transaction of a call for a device with the live session `session`**, when the call carries
no event id: it goes through exactly when other devices yield, and the session is for the same work or
a new one can be inserted. -/
theorem acceptEvent_isOk (tie : AgentStateEvent → Nat) (now : Int) {db : Database}
    (h : StoreInvariant db) {call : SyncCall} {adm : Admission} {session : WorkSession}
    (hsession : deviceSession db call = some session) (hevent : call.eventId = none)
    (hstatus : adm.status ≠ .stopped) :
    (∃ result, acceptEvent tie now db call adm = .ok result) ↔
      OthersYield db call adm.observed ∧
        ((session.taskId = call.taskId ∧ session.projectId = adm.projectId) ∨
          referencesExist db call.device.id call.device.ownerUserId adm.projectId call.taskId = true) := by
  have hprevious : previousReceipt tie db call = none := by
    unfold previousReceipt
    rw [hevent]
    rfl
  have hrecord : ∀ db' sessionId,
      recordEvent now db' call adm adm.observed sessionId = .ok db' := by
    intro db' sessionId
    unfold recordEvent
    rw [hevent]
  have hbody : ∀ db1, takeOver db call adm.status adm.observed = .ok db1 →
      ((∃ result, acceptEvent tie now db call adm = .ok result) ↔
        ((session.taskId = call.taskId ∧ session.projectId = adm.projectId) ∨
          referencesExist db call.device.id call.device.ownerUserId adm.projectId call.taskId =
            true)) := by
    intro db1 hdb1
    unfold acceptEvent
    rw [hprevious, hsession]
    simp only [clampToPrevious, hdb1, hrecord, cutGap, bind, Except.bind]
    by_cases hleft : session.taskId ≠ call.taskId ∨ session.projectId ≠ adm.projectId
    · have hmoved : ¬ (session.taskId = call.taskId ∧ session.projectId = adm.projectId) :=
        fun hsame => hleft.elim (fun hne => hne hsame.1) fun hne => hne hsame.2
      have hslot : liveSlotTaken (stopSession db1 session.id adm.observed)
          (newWorkSession now (stopSession db1 session.id adm.observed) call adm adm.observed) =
            false := by
        rw [liveSlotTaken_eq_false]
        intro ws hws hlive
        obtain ⟨hws, hne⟩ := live_of_mem_stopSession hws hlive
        obtain ⟨hold, hclear⟩ := takeOver_clears h hstatus hdb1 hws hlive
        have hdevice : ws.deviceId ≠ call.device.id := fun hdevice => hne (by
          rw [h.deviceSession_eq hold hlive hdevice, Option.some.injEq] at hsession
          rw [hsession])
        exact ⟨hdevice, hclear hdevice⟩
      have hreferences : referencesExist (stopSession db1 session.id adm.observed) call.device.id
          call.device.ownerUserId adm.projectId call.taskId =
            referencesExist db call.device.id call.device.ownerUserId adm.projectId call.taskId :=
        takeOver_references hdb1 _ _ _ _
      rw [or_iff_right hmoved, ← hreferences, ← openSession_isOk hslot]
      simp only [leaveWork, if_pos hleft]
      have happly : applyStatus now (stopSession db1 session.id adm.observed) call adm adm.observed none =
          (openSession now (stopSession db1 session.id adm.observed) call adm adm.observed).map
            fun result => (result.1, some result.2) := by
        unfold applyStatus
        cases hst : adm.status with
        | stopped => exact absurd hst hstatus
        | active | paused =>
          dsimp only
          cases openSession now (stopSession db1 session.id adm.observed) call adm adm.observed <;> rfl
      rw [happly]
      cases openSession now (stopSession db1 session.id adm.observed) call adm adm.observed with
      | ok result => exact iff_of_true ⟨_, rfl⟩ ⟨result, rfl⟩
      | error e =>
        refine iff_of_false ?_ ?_
        · rintro ⟨result, hresult⟩
          cases hresult
        · rintro ⟨result, hresult⟩
          cases hresult
    · have hsame : session.taskId = call.taskId ∧ session.projectId = adm.projectId :=
        ⟨not_not.mp fun hne => hleft (.inl hne), not_not.mp fun hne => hleft (.inr hne)⟩
      simp only [leaveWork, if_neg hleft]
      refine iff_of_true ?_ (.inl hsame)
      unfold applyStatus
      cases hst : adm.status with
      | stopped => exact absurd hst hstatus
      | active => exact ⟨_, rfl⟩
      | paused => exact ⟨_, rfl⟩
  constructor
  · rintro ⟨result, hresult⟩
    obtain ⟨db1, hdb1⟩ : ∃ db1, takeOver db call adm.status adm.observed = .ok db1 := by
      unfold acceptEvent at hresult
      rw [hprevious] at hresult
      obtain ⟨db1, hdb1, _⟩ := bind_eq_ok.mp hresult
      exact ⟨db1, hdb1⟩
    exact ⟨(takeOver_isOk hstatus).mp ⟨db1, hdb1⟩, (hbody db1 hdb1).mp ⟨result, hresult⟩⟩
  · rintro ⟨hyields, hwork⟩
    obtain ⟨db1, hdb1⟩ := (takeOver_isOk hstatus).mpr hyields
    exact (hbody db1 hdb1).mpr hwork

/-- A stop without an event id goes through exactly when its task fits. -/
theorem timerStop_isOk (tie : AgentStateEvent → Nat) (now : Int) {db : Database} {device : Device}
    {taskId projectId : Option Nat} :
    (∃ result, syncWorkSession tie now db (timerCall device .stopped taskId projectId false) =
        .ok result) ↔
      TaskFits db (timerCall device .stopped taskId projectId false) := by
  have htime : ((timerCall device .stopped taskId projectId false).observedAt.getD
      (Datetime.ofInstant now)).toUtc? = some now := Datetime.toUtc?_ofInstant now
  have hstatus : (timerCall device .stopped taskId projectId false).status = some .stopped := rfl
  rcases syncWorkSession_stopped tie hstatus htime with
    ⟨hfits, detail, _, hsync⟩ | ⟨hfits, _, row, hsync⟩ | ⟨hfits, _, endedAt, at', adm, _, hsync⟩
  · rw [hsync]
    refine iff_of_false ?_ hfits
    rintro ⟨result, hresult⟩
    cases hresult
  · exact iff_of_true ⟨_, hsync⟩ hfits
  · exact iff_of_true ⟨_, hsync⟩ hfits

/-! ## The running session carries on -/

/-- The call of a change for the running session `active` on its device. -/
def changeCall (device : Device) (active : WorkSession) (action : TimerChange) : SyncCall :=
  timerCall device action.status active.taskId active.projectId true

/-- **What a pause or a resume needs**, as conditions on the database: the call is admissible, other
devices yield, and the session is for the project its task and device settle on, or a new one can be
inserted. -/
structure CarriesOn (now : Int) (db : Database) (device : Device) (active : WorkSession)
    (action : TimerChange) : Prop where
  admissible : Admissible now db (changeCall device active action)
  others : OthersYield db (changeCall device active action) now
  work : active.projectId = settledProject db (changeCall device active action) ∨
    referencesExist db device.id device.ownerUserId
      (settledProject db (changeCall device active action)) active.taskId = true

theorem syncWorkSession_carriesOn (tie : AgentStateEvent → Nat) (now : Int) {db : Database}
    (h : StoreInvariant db) {device : Device} {active : WorkSession} {action : TimerChange}
    (hactive : active ∈ db.workSessions) (hlive : active.live) (hdevice : device.id = active.deviceId) :
    (∃ result, syncWorkSession tie now db (changeCall device active action) = .ok result) ↔
      CarriesOn now db device active action := by
  have hstatus : (changeCall device active action).status = some action.status := rfl
  have hstopped : action.status ≠ .stopped := by cases action <;> decide
  have hsession : deviceSession db (changeCall device active action) = some active :=
    h.deviceSession_eq hactive hlive hdevice.symm
  have hbody : ∀ adm, admitSync now db (changeCall device active action) action.status = .ok adm →
      ((∃ result, acceptEvent tie now db (changeCall device active action) adm = .ok result) ↔
        OthersYield db (changeCall device active action) now ∧
          (active.projectId = settledProject db (changeCall device active action) ∨
            referencesExist db device.id device.ownerUserId
              (settledProject db (changeCall device active action)) active.taskId = true)) := by
    intro adm hadm
    obtain ⟨hadmStatus, hadmitted⟩ := admitSync_eq_ok.mp hadm
    have hobserved : adm.observed = now := Option.some.inj
      (hadmitted.observed.symm.trans (Datetime.toUtc?_ofInstant now))
    have hproject : adm.projectId = settledProject db (changeCall device active action) := by
      have hfits := checkTask_fits (checkTask_isOk.mp ⟨_, hadmitted.task⟩)
      exact Except.ok.inj (hadmitted.task.symm.trans hfits)
    rw [acceptEvent_isOk tie now h hsession rfl (hadmStatus ▸ hstopped), hobserved, hproject]
    refine and_congr_right fun _ => or_congr_left ?_
    exact ⟨fun hsame => hsame.2, fun hsame => ⟨rfl, hsame⟩⟩
  unfold syncWorkSession
  rw [hstatus]
  dsimp only
  constructor
  · rintro ⟨result, hresult⟩
    obtain ⟨adm, hadm, hresult⟩ := bind_eq_ok.mp hresult
    obtain ⟨_, hpolicy, hresult⟩ := bind_eq_ok.mp hresult
    obtain ⟨hothers, hwork⟩ := (hbody adm hadm).mp ⟨result, hresult⟩
    exact ⟨(admissible_iff hstatus).mp ⟨adm, hadm, hpolicy⟩, hothers, hwork⟩
  · rintro ⟨hadmissible, hothers, hwork⟩
    obtain ⟨adm, hadm, hpolicy⟩ := (admissible_iff hstatus).mpr hadmissible
    obtain ⟨result, hresult⟩ := (hbody adm hadm).mpr ⟨hothers, hwork⟩
    exact ⟨result, bind_eq_ok.mpr ⟨adm, hadm, bind_eq_ok.mpr ⟨(), hpolicy, hresult⟩⟩⟩

/-- Breaks have no part in it. -/
theorem CarriesOn.of_breaks {now : Int} {db : Database} {device : Device} {active : WorkSession}
    {action : TimerChange} {breaks : List WorkBreak} {nextId : Nat} :
    CarriesOn now { db with workBreaks := breaks, nextId } device active action ↔
      CarriesOn now db device active action := by
  constructor
  · rintro ⟨⟨haware, htask, hmay⟩, hothers, hwork⟩
    refine ⟨⟨haware, htask, fun hst => ?_⟩, hothers, hwork⟩
    obtain ⟨owner, howner, hunlocked, hrole, hproject, hlimits, hpolicy⟩ := hmay hst
    exact ⟨owner, howner, hunlocked, hrole, hproject,
      fun hmember => ⟨(hlimits hmember).daily, (hlimits hmember).weekly⟩, hpolicy⟩
  · rintro ⟨⟨haware, htask, hmay⟩, hothers, hwork⟩
    refine ⟨⟨haware, htask, fun hst => ?_⟩, hothers, hwork⟩
    obtain ⟨owner, howner, hunlocked, hrole, hproject, hlimits, hpolicy⟩ := hmay hst
    exact ⟨owner, howner, hunlocked, hrole, hproject,
      fun hmember => ⟨(hlimits hmember).daily, (hlimits hmember).weekly⟩, hpolicy⟩

/-! ## Rejected requests -/

/-- Sessions, segments, breaks and receipts are as they were. -/
structure SameTables (db db' : Database) : Prop where
  workSessions : db'.workSessions = db.workSessions
  segments : db'.segments = db.segments
  workBreaks : db'.workBreaks = db.workBreaks
  agentStateEvents : db'.agentStateEvents = db.agentStateEvents

/-- A rejected request changes nothing. -/
def RejectedUnchanged (db : Database) (result : WebStore × TimerAnswer) : Prop :=
  result.2 ≠ .accepted → SameTables db result.1.db

/-- The requests that change the timer, and the events of the field timer. -/
def TimerRequest.ChangesTimer : TimerRequest → Prop
  | .location _ => False
  | _ => True

/-- A stop ends a break of the user, and the task of the running session no longer fits. -/
def StopLosesBreak (now : Int) (s : WebStore) (userId : Nat) : Prop :=
  ∃ active device, s.activeTimer userId = some active ∧ s.db.getDevice active.deviceId = some device ∧
    ¬ BreakAhead now s.db userId ∧ ¬ NoOpenBreak s.db userId ∧
    ¬ TaskFits s.db (timerCall device .stopped active.taskId active.projectId false)

/-- The break statement of a change moves a break: a pause begins one where none is open, a resume
ends the open ones. -/
def TimerChange.MovesBreak (now : Int) (db : Database) (userId : Nat) : TimerChange → Prop
  | .pause => NoOpenBreak db userId
  | .resume => ¬ BreakAhead now db userId ∧ ¬ NoOpenBreak db userId

/-- A change moves a break, and the running session does not carry on. -/
def ChangeMovesBreak (now : Int) (s : WebStore) (userId : Nat) (action : TimerChange) : Prop :=
  ∃ active device, s.activeTimer userId = some active ∧ s.db.getDevice active.deviceId = some device ∧
    (action = .resume → webTimerAllowed s.db userId = true) ∧ action.MovesBreak now s.db userId ∧
    ¬ CarriesOn now s.db device active action

/-- **The request is rejected after its break was committed.** -/
def MovesBreakOnly (now : Int) (s : WebStore) (userId : Nat) : TimerRequest → Prop
  | .stop => (requireWorker s.db userId).isOk = true ∧ StopLosesBreak now s userId
  | .change action => (requireWorker s.db userId).isOk = true ∧ ChangeMovesBreak now s userId action
  | _ => False

section

variable {s : WebStore} {userId : Nat}

theorem rejectedUnchanged_self (answer : TimerAnswer) : RejectedUnchanged s.db (s, answer) :=
  fun _ => ⟨rfl, rfl, rfl, rfl⟩

/-- A call that is rejected leaves the store as it was. -/
theorem sync_rejected (pick : Picks) (now : Int) (call : SyncCall) (onError : Error → TimerAnswer)
    (h : (s.sync pick now call onError).2 ≠ .accepted) : (s.sync pick now call onError).1 = s := by
  unfold WebStore.sync at h ⊢
  split at h
  · exact absurd rfl h
  · rfl

/-- A device that is added for the timer is in none of the four tables. -/
theorem webTimerDevice_sameTables {pick : Picks} {projectId : Option Nat} {s' : WebStore}
    {device : Device} (h : s.webTimerDevice pick userId projectId = .ok (s', device)) :
    SameTables s.db s'.db := by
  unfold WebStore.webTimerDevice WebStore.insertDevice at h
  split at h
  · cases h
    exact ⟨rfl, rfl, rfl, rfl⟩
  · split at h
    · cases h
    · cases h
      exact ⟨rfl, rfl, rfl, rfl⟩

/-- Only `sync_work_session` writes for a start. -/
theorem startWebTimer_rejected (pick : Picks) (now : Int) (projectId : Nat) (taskId : Option Nat) :
    RejectedUnchanged s.db (startWebTimer pick now s userId projectId taskId) := by
  unfold startWebTimer
  split
  · exact rejectedUnchanged_self _
  split
  · exact rejectedUnchanged_self _
  split
  · exact rejectedUnchanged_self _
  split
  · exact rejectedUnchanged_self _
  · rename_i hdevice
    intro hrejected
    rw [sync_rejected _ _ _ _ hrejected]
    exact webTimerDevice_sameTables hdevice

theorem fieldTimerEvent_rejected (pick : Picks) (now : Int) (payload : FieldTimerEvent) :
    RejectedUnchanged s.db (fieldTimerEvent pick now s userId payload) := by
  unfold fieldTimerEvent
  split
  · exact rejectedUnchanged_self _
  split
  · exact rejectedUnchanged_self _
  split
  · exact rejectedUnchanged_self _
  dsimp only
  split
  · exact rejectedUnchanged_self _
  · rename_i hdevice
    intro hrejected
    rw [sync_rejected _ _ _ _ hrejected]
    exact webTimerDevice_sameTables hdevice

/-! ## The break that stays moved -/

/-- Ending a user's breaks changes the table exactly when one is open. -/
theorem endedBreaks_eq_self (now : Int) (db : Database) :
    endedBreaks now db userId = db.workBreaks ↔ NoOpenBreak db userId := by
  constructor
  · intro hsame
    have hended := noOpenBreak_endedBreaks now db userId
    rw [hsame] at hended
    exact hended
  · intro hnone
    refine Library.updateWhere_eq_self fun b hb => ?_
    by_contra hsel
    rw [Bool.not_eq_false, Bool.and_eq_true, beq_iff_eq, Option.isNone_iff_eq_none] at hsel
    exact hnone b hb hsel.1 hsel.2

/-- A rejected call after the breaks were set to `breaks`. -/
theorem rejectedUnchanged_breaks (breaks : List WorkBreak) (nextId : Nat) (pick : Picks) (now : Int)
    (call : SyncCall) {onError : Error → TimerAnswer} (hanswers : Answers onError) :
    RejectedUnchanged s.db
        ({ s with db := { s.db with workBreaks := breaks, nextId } }.sync pick now call onError) ↔
      (∃ result, syncWorkSession pick.receipt now { s.db with workBreaks := breaks, nextId } call =
        .ok result) ∨ breaks = s.db.workBreaks := by
  unfold RejectedUnchanged WebStore.sync
  dsimp only
  cases hsync : syncWorkSession pick.receipt now { s.db with workBreaks := breaks, nextId } call with
  | ok result => exact iff_of_true (fun hrejected => absurd rfl hrejected) (.inl ⟨result, rfl⟩)
  | error e =>
    dsimp only
    constructor
    · intro hsame
      exact .inr (hsame (hanswers.error e)).workBreaks
    · rintro (⟨result, hresult⟩ | hsame) _
      · cases hresult
      · exact ⟨rfl, rfl, hsame, rfl⟩

theorem stopWebTimer_rejected_iff (pick : Picks) (now : Int) :
    RejectedUnchanged s.db (stopWebTimer pick now s userId) ↔
      ¬ ((requireWorker s.db userId).isOk = true ∧ StopLosesBreak now s userId) := by
  unfold stopWebTimer StopLosesBreak
  cases hworker : requireWorker s.db userId with
  | error answer =>
    refine iff_of_true (rejectedUnchanged_self _) ?_
    rintro ⟨hok, _⟩
    cases hok
  | ok user =>
    dsimp only
    cases hactive : s.activeTimer userId with
    | none =>
      refine iff_of_true (rejectedUnchanged_self _) ?_
      rintro ⟨_, active, device, hsome, _⟩
      cases hsome
    | some active =>
      dsimp only
      cases hdevice : s.db.getDevice active.deviceId with
      | none =>
        refine iff_of_true (rejectedUnchanged_self _) ?_
        rintro ⟨_, active', device, hsome, hfound, _⟩
        obtain rfl := Option.some.inj hsome
        rw [hdevice] at hfound
        cases hfound
      | some device =>
        dsimp only
        by_cases hbreak : BreakAhead now s.db userId
        · rw [stopBreak_ahead hbreak]
          refine iff_of_true (rejectedUnchanged_self _) ?_
          rintro ⟨_, _, _, _, _, hnot, _⟩
          exact hnot hbreak
        · rw [stopBreak_clear hbreak]
          dsimp only
          have hunchanged : RejectedUnchanged s.db ({ s with db := { s.db with
                workBreaks := endedBreaks now s.db userId } }.sync pick now
                (timerCall device .stopped active.taskId active.projectId false) .failed) ↔
              TaskFits s.db (timerCall device .stopped active.taskId active.projectId false) ∨
                NoOpenBreak s.db userId := by
            rw [← endedBreaks_eq_self now]
            exact (rejectedUnchanged_breaks (endedBreaks now s.db userId) s.db.nextId pick now _
              answers_failed).trans (or_congr_left (timerStop_isOk pick.receipt now))
          rw [hunchanged]
          constructor
          · rintro hgood ⟨_, active', device', hsome, hfound, _, hopen, hfits⟩
            obtain rfl := Option.some.inj hsome
            obtain rfl := Option.some.inj (hdevice.symm.trans hfound)
            exact hgood.elim hfits hopen
          · intro hgood
            by_contra hbad
            rw [not_or] at hbad
            exact hgood ⟨rfl, active, device, rfl, hdevice, hbreak, hbad.2, hbad.1⟩

theorem activeTimer_mem {active : WorkSession} (h : s.activeTimer userId = some active) :
    active ∈ s.db.workSessions ∧ active.live := by
  obtain ⟨hm, hsel⟩ := List.mem_filter.mp (Library.latestBy_mem h)
  exact ⟨hm, (Bool.and_eq_true_iff.mp hsel).2⟩

/-- `start_break`, while a break is open and while none is. -/
theorem startBreak_open {now : Int} {db : Database} {sessionId : Nat} (h : ¬ NoOpenBreak db userId) :
    startBreak now db userId sessionId false = .ok db := by
  unfold NoOpenBreak at h
  push Not at h
  obtain ⟨b, hb, hbUser, hopen⟩ := h
  exact if_pos (List.any_eq_true.mpr ⟨b, hb, by simp [hbUser, hopen]⟩)

theorem startBreak_begins (now : Int) {db : Database} {sessionId : Nat} (h : NoOpenBreak db userId)
    (huser : (db.getUserAny userId).isSome) (hsession : (db.getWorkSession sessionId).isSome) :
    startBreak now db userId sessionId false =
      .ok { db with
        workBreaks := db.workBreaks ++
          [{ id := db.nextId, userId, sessionId := some sessionId, startedAt := now, endedAt := none,
             paid := false }]
        nextId := db.nextId + 1 } := by
  have hnone : ¬ (db.workBreaks.any fun b => b.userId == userId && b.endedAt.isNone) = true := by
    intro hany
    obtain ⟨b, hb, hsel⟩ := List.any_eq_true.mp hany
    rw [Bool.and_eq_true, beq_iff_eq, Option.isNone_iff_eq_none] at hsel
    exact h b hb hsel.1 hsel.2
  have hrows : ¬ ((db.getUserAny userId).isNone = true ∨ (db.getWorkSession sessionId).isNone = true) := by
    rw [← Option.not_isSome, ← Option.not_isSome, huser, hsession]
    decide
  unfold startBreak
  rw [if_neg hnone, if_neg hrows]

/-- The break statement of a change, when it goes through: the breaks it leaves are other ones exactly
when there is a break to move. -/
theorem moveBreak_cases (action : TimerChange) (now : Int) {active : WorkSession}
    (h : StoreInvariant s.db) (hactive : active ∈ s.db.workSessions)
    (huser : (s.db.getUserAny userId).isSome) :
    (action = .resume ∧ BreakAhead now s.db userId ∧
      action.moveBreak now s.db userId active.id = .error .checkViolation) ∨
    ∃ breaks nextId, s.db.nextId ≤ nextId ∧
      action.moveBreak now s.db userId active.id =
        .ok { s.db with workBreaks := breaks, nextId } ∧
      (breaks = s.db.workBreaks ↔ ¬ action.MovesBreak now s.db userId) := by
  cases action with
  | pause =>
    right
    by_cases hopen : NoOpenBreak s.db userId
    · have hsession : (s.db.getWorkSession active.id).isSome := by
        rw [h.getWorkSession_eq hactive]
        rfl
      refine ⟨_, _, Nat.le_succ _, startBreak_begins now hopen huser hsession,
        iff_of_false (fun hsame => ?_) (not_not.mpr hopen)⟩
      simp at hsame
    · exact ⟨s.db.workBreaks, s.db.nextId, le_rfl, startBreak_open hopen, iff_of_true rfl hopen⟩
  | resume =>
    by_cases hahead : BreakAhead now s.db userId
    · exact .inl ⟨rfl, hahead, stopBreak_ahead hahead⟩
    · right
      refine ⟨endedBreaks now s.db userId, s.db.nextId, le_rfl, stopBreak_clear hahead, ?_⟩
      rw [endedBreaks_eq_self]
      exact ⟨fun hnone hmoves => hmoves.2 hnone,
        fun hnot => not_not.mp fun hopen => hnot ⟨hahead, hopen⟩⟩

theorem changeWebTimer_rejected_iff (pick : Picks) (now : Int) (action : TimerChange)
    (h : StoreInvariant s.db) :
    RejectedUnchanged s.db (changeWebTimer pick now s userId action) ↔
      ¬ ((requireWorker s.db userId).isOk = true ∧ ChangeMovesBreak now s userId action) := by
  unfold changeWebTimer ChangeMovesBreak
  cases hworker : requireWorker s.db userId with
  | error answer =>
    refine iff_of_true (rejectedUnchanged_self _) ?_
    rintro ⟨hok, _⟩
    cases hok
  | ok user =>
    dsimp only
    cases hactive : s.activeTimer userId with
    | none =>
      refine iff_of_true (rejectedUnchanged_self _) ?_
      rintro ⟨_, active, device, hsome, _⟩
      cases hsome
    | some active =>
      dsimp only
      obtain ⟨hmem, hlive⟩ := activeTimer_mem hactive
      cases hrequire : action.require s.db userId with
      | error answer =>
        refine iff_of_true (rejectedUnchanged_self _) ?_
        rintro ⟨_, _, _, _, _, hallowed, _⟩
        cases action with
        | pause => cases hrequire
        | resume =>
          replace hallowed := hallowed rfl
          unfold TimerChange.require requireWebTimerAllowed at hrequire
          rw [if_pos hallowed] at hrequire
          cases hrequire
      | ok _ =>
        dsimp only
        cases hdevice : s.db.getDevice active.deviceId with
        | none =>
          refine iff_of_true (rejectedUnchanged_self _) ?_
          rintro ⟨_, active', device, hsome, hfound, _⟩
          obtain rfl := Option.some.inj hsome
          rw [hdevice] at hfound
          cases hfound
        | some device =>
          dsimp only
          rcases moveBreak_cases action now h hmem (getUserAny_of_worker hworker).2 with
            ⟨rfl, hahead, hmove⟩ | ⟨breaks, nextId, hnext, hmove, hsame⟩
          · rw [hmove]
            refine iff_of_true (rejectedUnchanged_self _) ?_
            rintro ⟨_, _, _, _, _, _, hmoves, _⟩
            exact hmoves.1 hahead
          · rw [hmove]
            dsimp only
            have hkept : StoreInvariant { s.db with workBreaks := breaks, nextId } :=
              h.of_eq rfl rfl hnext
            have hunchanged := (rejectedUnchanged_breaks breaks nextId pick now
              (changeCall device active action) answers_valueError).trans
              (or_congr_left ((syncWorkSession_carriesOn pick.receipt now hkept hmem hlive
                (getDevice_id hdevice)).trans CarriesOn.of_breaks))
            rw [hsame] at hunchanged
            refine hunchanged.trans ⟨?_, fun hgood => ?_⟩
            · rintro hgood ⟨_, active', device', hsome, hfound, _, hmoves, hcarries⟩
              obtain rfl := Option.some.inj hsome
              obtain rfl := Option.some.inj (hdevice.symm.trans hfound)
              exact hgood.elim hcarries fun hnot => hnot hmoves
            · by_contra hbad
              rw [not_or, not_not] at hbad
              refine hgood ⟨rfl, active, device, rfl, hdevice, ?_, hbad.2, hbad.1⟩
              rintro rfl
              unfold TimerChange.require requireWebTimerAllowed at hrequire
              by_contra hnot
              rw [if_neg hnot] at hrequire
              cases hrequire

end

/-- **A rejected request changes nothing, exactly when it did not move a break first.** In every
reachable state, a request of the web timer or an event of the field timer that is answered with an error
leaves sessions, segments, breaks and receipts as they were, if and only if it is not one of
`MovesBreakOnly`. -/
theorem timerRequest_rejected_iff (db : Database) (ops : List WebOp) (pick : Picks) (now : Int)
    (userId : Nat) (request : TimerRequest) (hchanges : request.ChangesTimer) :
    RejectedUnchanged (run WebStore.step (WebStore.start db) ops).db
        (request.serve pick now (run WebStore.step (WebStore.start db) ops) userId) ↔
      ¬ MovesBreakOnly now (run WebStore.step (WebStore.start db) ops) userId request := by
  have h := webStore_run db ops
  generalize run WebStore.step (WebStore.start db) ops = s at *
  cases request with
  | start projectId taskId =>
      exact iff_of_true (startWebTimer_rejected pick now projectId taskId) not_false
  | stop => exact stopWebTimer_rejected_iff pick now
  | change action => exact changeWebTimer_rejected_iff pick now action h
  | field payload => exact iff_of_true (fieldTimerEvent_rejected pick now payload) not_false
  | location point => exact hchanges.elim

/-- While the timer runs, a start in a project that does not exist is refused and changes nothing. -/
theorem timerRequest_rejected_iff_start :
    RejectedUnchanged
      (run WebStore.step (WebStore.start office) [.request {} (minutes 600) 1 (.start 1 none)]).db
      ((TimerRequest.start 2 none).serve {} (minutes 601)
        (run WebStore.step (WebStore.start office) [.request {} (minutes 600) 1 (.start 1 none)]) 1) :=
  (timerRequest_rejected_iff office [.request {} (minutes 600) 1 (.start 1 none)] {} (minutes 601) 1
    (.start 2 none) trivial).mpr not_false

/-- The office with a daily limit of one minute for its member. -/
def limitedOffice : Database :=
  { office with
    users := [{ id := 1, role := .member, enabled := true, dailyLimitMinutes := 1,
                weeklyLimitMinutes := 0 }] }

/-- The member works for two minutes, takes a break, and resumes: the request is answered 422, as the
daily limit is reached, and the break has ended. -/
theorem timerRequest_resume_refused :
    ¬ ∀ (db : Database) (ops : List WebOp) (pick : Picks) (now : Int) (userId : Nat)
        (request : TimerRequest), request.ChangesTimer →
      RejectedUnchanged (run WebStore.step (WebStore.start db) ops).db
        (request.serve pick now (run WebStore.step (WebStore.start db) ops) userId) := by
  intro h
  have hsame := h limitedOffice
    [.request {} (minutes 600) 1 (.start 1 none), .request {} (minutes 602) 1 (.change .pause)] {}
    (minutes 610) 1 (.change .resume) trivial (by decide +kernel)
  have hbreaks := hsame.workBreaks
  revert hbreaks
  decide +kernel

end Dayfinch
