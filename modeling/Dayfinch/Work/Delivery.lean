/-
# Dayfinch.Work.Delivery -- what the time of delivery changes

A journal of heartbeats is delivered twice, at two assignments of server clocks. The transaction writes
the server clock into columns that it never reads, so databases that are `Alike`, equal but for those
columns, stay alike under it. One statement of `sync_work_session` reads the clock: the limit check
counts an open segment up to the delivery. `limitsSettled` is the condition that this makes no
difference, and it is exact.
-/
import Dayfinch.Work.SyncEffect

namespace Dayfinch

open Library (Agree updateWhere run Guarded latestBy)

/-! ## Databases alike -/

/-- A session without the server times of its writes. -/
def WorkSession.credited (ws : WorkSession) : WorkSession := { ws with createdAt := 0, updatedAt := 0 }

/-- A receipt without the server time of its delivery. -/
def AgentStateEvent.credited (e : AgentStateEvent) : AgentStateEvent := { e with receivedAt := 0 }

/-- A user without limits; zero means none. -/
def User.unlimited (u : User) : User := { u with dailyLimitMinutes := 0, weeklyLimitMinutes := 0 }

/-- The database without limits. -/
def Database.withoutLimits (db : Database) : Database :=
  { db with users := db.users.map User.unlimited }

/-- The database without limits and server times. -/
def Database.credited (db : Database) : Database :=
  { db with
    users := db.users.map User.unlimited
    workSessions := db.workSessions.map WorkSession.credited
    agentStateEvents := db.agentStateEvents.map AgentStateEvent.credited }

/-- The databases differ in limits and server times at most. -/
def Alike (db db' : Database) : Prop := db.credited = db'.credited

theorem alike_withoutLimits (db : Database) : Alike db db.withoutLimits := by
  unfold Alike Database.credited Database.withoutLimits
  simp only [List.map_map]
  rfl

/-- The same row, or none on both sides. -/
def SameSession (session session' : Option WorkSession) : Prop :=
  session.map WorkSession.credited = session'.map WorkSession.credited

def SameReceipt (receipt receipt' : Option AgentStateEvent) : Prop :=
  receipt.map AgentStateEvent.credited = receipt'.map AgentStateEvent.credited

theorem SameSession.cases {session session' : Option WorkSession} (h : SameSession session session') :
    (session = none ∧ session' = none) ∨
      ∃ ws ws', session = some ws ∧ session' = some ws' ∧ ws.credited = ws'.credited := by
  unfold SameSession at h
  cases session with
  | none =>
    cases session' with
    | none => exact .inl ⟨rfl, rfl⟩
    | some ws' => cases h
  | some ws =>
    cases session' with
    | none => cases h
    | some ws' => exact .inr ⟨ws, ws', rfl, rfl, Option.some.inj h⟩

theorem SameReceipt.cases {receipt receipt' : Option AgentStateEvent}
    (h : SameReceipt receipt receipt') :
    (receipt = none ∧ receipt' = none) ∨
      ∃ e e', receipt = some e ∧ receipt' = some e' ∧ e.credited = e'.credited := by
  unfold SameReceipt at h
  cases receipt with
  | none =>
    cases receipt' with
    | none => exact .inl ⟨rfl, rfl⟩
    | some e' => cases h
  | some e =>
    cases receipt' with
    | none => cases h
    | some e' => exact .inr ⟨e, e', rfl, rfl, Option.some.inj h⟩

theorem WorkSession.eq_of_credited {ws ws' : WorkSession} (h : ws.credited = ws'.credited) :
    ws.id = ws'.id ∧ ws.taskId = ws'.taskId ∧ ws.projectId = ws'.projectId ∧ ws.status = ws'.status ∧
      ws.startedAt = ws'.startedAt := by
  simp only [WorkSession.credited, WorkSession.mk.injEq] at h
  obtain ⟨hid, _, _, hproject, htask, hstatus, _, hstart, _⟩ := h
  exact ⟨hid, htask, hproject, hstatus, hstart⟩

theorem AgentStateEvent.eq_of_credited {e e' : AgentStateEvent} (h : e.credited = e'.credited) :
    e.status = e'.status ∧ e.observedAt = e'.observedAt ∧
      e.heartbeatIntervalSeconds = e'.heartbeatIntervalSeconds := by
  simp only [AgentStateEvent.credited, AgentStateEvent.mk.injEq] at h
  obtain ⟨_, _, hat, _, hstatus, _, _, _, _, hevery, _⟩ := h
  exact ⟨hstatus, hat, hevery⟩

section

variable {db db' : Database} {call : SyncCall} {adm : Admission} {now now' observed : Int}

/-! ## What a heartbeat finds -/

theorem getUserAny_credited (db : Database) (userId : Nat) :
    db.credited.getUserAny userId = (db.getUserAny userId).map User.unlimited := List.find?_map

/-- Limits say nothing about who is enabled. -/
theorem getUser_of_unlimited {userId : Nat}
    (h : db'.getUserAny userId = (db.getUserAny userId).map User.unlimited) :
    db'.getUser userId = (db.getUser userId).map User.unlimited := by
  unfold Database.getUser
  rw [h]
  cases db.getUserAny userId with
  | none => rfl
  | some user =>
    show (if user.enabled then _ else _) = Option.map _ (if user.enabled then _ else _)
    split <;> rfl

theorem getUser_alike (h : Alike db db') (userId : Nat) :
    (db.getUser userId).map User.unlimited = (db'.getUser userId).map User.unlimited := by
  rw [← getUser_of_unlimited (getUserAny_credited db userId),
    ← getUser_of_unlimited (getUserAny_credited db' userId), h]

theorem referencesExist_credited (db : Database) (deviceId : Nat) (userId projectId taskId : Option Nat) :
    referencesExist db.credited deviceId userId projectId taskId =
      referencesExist db deviceId userId projectId taskId := by
  unfold referencesExist
  simp only [getUserAny_credited, Option.isSome_map]
  rfl

theorem deviceSession_credited (db : Database) (call : SyncCall) :
    deviceSession db.credited call = (deviceSession db call).map WorkSession.credited := by
  unfold deviceSession
  show latestBy _ _ ((db.workSessions.map WorkSession.credited).filter _) = _
  rw [List.filter_map]
  exact Library.latestBy_map (f := WorkSession.credited) (fun _ => rfl) (fun _ => rfl) _

theorem otherSession_credited (db : Database) (call : SyncCall) :
    otherSession db.credited call = (otherSession db call).map WorkSession.credited := by
  unfold otherSession
  cases call.device.ownerUserId with
  | none => rfl
  | some userId =>
    show latestBy _ _ ((db.workSessions.map WorkSession.credited).filter _) = _
    rw [List.filter_map]
    exact Library.latestBy_map (f := WorkSession.credited) (fun _ => rfl) (fun _ => rfl) _

theorem duplicateReceipt_credited (db : Database) (call : SyncCall) :
    duplicateReceipt db.credited call = (duplicateReceipt db call).map AgentStateEvent.credited := by
  unfold duplicateReceipt
  cases call.eventId with
  | none => rfl
  | some eventId => exact List.find?_map

/-- The database breaks ties without looking at the delivery. -/
def timeBlind (tie : AgentStateEvent → Nat) (e : AgentStateEvent) : Nat := tie e.credited

theorem previousReceipt_credited (tie : AgentStateEvent → Nat) (db : Database) (call : SyncCall) :
    previousReceipt (timeBlind tie) db.credited call =
      (previousReceipt (timeBlind tie) db call).map AgentStateEvent.credited := by
  unfold previousReceipt
  cases call.eventId with
  | none => rfl
  | some eventId =>
    show latestBy _ _ ((db.agentStateEvents.map AgentStateEvent.credited).filter _) = _
    rw [List.filter_map]
    exact Library.latestBy_map (f := AgentStateEvent.credited) (fun _ => rfl) (fun _ => rfl) _

theorem deviceSession_alike (h : Alike db db') (call : SyncCall) :
    SameSession (deviceSession db call) (deviceSession db' call) := by
  unfold SameSession
  rw [← deviceSession_credited, ← deviceSession_credited, h]

theorem otherSession_alike (h : Alike db db') (call : SyncCall) :
    SameSession (otherSession db call) (otherSession db' call) := by
  unfold SameSession
  rw [← otherSession_credited, ← otherSession_credited, h]

theorem duplicateReceipt_alike (h : Alike db db') (call : SyncCall) :
    SameReceipt (duplicateReceipt db call) (duplicateReceipt db' call) := by
  unfold SameReceipt
  rw [← duplicateReceipt_credited, ← duplicateReceipt_credited, h]

theorem previousReceipt_alike (h : Alike db db') (tie : AgentStateEvent → Nat) (call : SyncCall) :
    SameReceipt (previousReceipt (timeBlind tie) db call)
      (previousReceipt (timeBlind tie) db' call) := by
  unfold SameReceipt
  rw [← previousReceipt_credited, ← previousReceipt_credited, h]

theorem clampToPrevious_alike {previous previous' : Option AgentStateEvent}
    (h : SameReceipt previous previous') (observed : Int) :
    clampToPrevious previous observed = clampToPrevious previous' observed := by
  rcases h.cases with ⟨rfl, rfl⟩ | ⟨e, e', rfl, rfl, he⟩
  · rfl
  · obtain ⟨_, hat, _⟩ := AgentStateEvent.eq_of_credited he
    show max observed e.observedAt = max observed e'.observedAt
    rw [hat]

/-! ## What its statements write -/

theorem closeSegment_alike (h : Alike db db') (sessionId : Nat) (endedAt : Int) :
    Alike (closeSegment db sessionId endedAt) (closeSegment db' sessionId endedAt) := by
  have hcredited : ∀ db : Database, (closeSegment db sessionId endedAt).credited =
      closeSegment db.credited sessionId endedAt := fun _ => rfl
  unfold Alike
  rw [hcredited, hcredited, h]

theorem startSegment_alike (h : Alike db db') (sessionId : Nat) (startedAt : Int) :
    Alike (startSegment db sessionId startedAt) (startSegment db' sessionId startedAt) := by
  have hcredited : ∀ db : Database, (startSegment db sessionId startedAt).credited =
      startSegment db.credited sessionId startedAt := fun _ => rfl
  unfold Alike
  rw [hcredited, hcredited, h]

/-- Rows of `work_sessions` with an id, rewritten alike. -/
theorem updateSession_alike (h : Alike db db') {f g : WorkSession → WorkSession}
    (hfg : ∀ ws, (f ws).credited = (g ws).credited)
    (hg : ∀ ws, (g ws).credited = (g ws.credited).credited) (sessionId : Nat) :
    Alike { db with workSessions := updateWhere (·.id == sessionId) f db.workSessions }
      { db' with workSessions := updateWhere (·.id == sessionId) g db'.workSessions } := by
  have hcredited : ∀ (db : Database) (f : WorkSession → WorkSession),
      (∀ ws, (f ws).credited = (g ws.credited).credited) →
      ({ db with workSessions := updateWhere (·.id == sessionId) f db.workSessions } :
        Database).credited =
      { db.credited with
        workSessions := (updateWhere (·.id == sessionId) g db.credited.workSessions).map
          WorkSession.credited } := by
    intro db f hf
    have hrows := Library.map_updateWhere_comm (p := (·.id == sessionId)) (q := (·.id == sessionId))
      (c := WorkSession.credited) (fun _ => rfl) hf (fun _ => rfl) db.workSessions
    show ({ db.credited with workSessions := List.map _ _ } : Database) = _
    rw [hrows]
    rfl
  unfold Alike
  rw [hcredited db f fun ws => (hfg ws).trans (hg ws), hcredited db' g hg, h]

theorem stopSession_alike (h : Alike db db') (sessionId : Nat) (endedAt : Int) :
    Alike (stopSession db sessionId endedAt) (stopSession db' sessionId endedAt) :=
  updateSession_alike (closeSegment_alike h sessionId endedAt) (fun _ => rfl) (fun _ => rfl) sessionId

theorem takeOver_alike (h : Alike db db') (call : SyncCall) (status : SessionStatus) (observed : Int) :
    Agree Alike (takeOver db call status observed) (takeOver db' call status observed) := by
  unfold Dayfinch.takeOver
  by_cases hstopped : status = .stopped
  · rw [if_pos hstopped, if_pos hstopped]
    exact .ok h
  · rw [if_neg hstopped, if_neg hstopped]
    rcases (otherSession_alike h call).cases with ⟨hnone, hnone'⟩ | ⟨ws, ws', hsome, hsome', hws⟩
    · rw [hnone, hnone']
      exact .ok h
    · obtain ⟨hid, _, _, _, hstart⟩ := WorkSession.eq_of_credited hws
      rw [hsome, hsome']
      simp only [hid, hstart]
      refine Agree.bind (Agree.refl (fun _ => trivial) _) fun _ _ (_ : True) => ?_
      refine Agree.bind (Agree.refl (fun _ => trivial) _) fun _ _ (_ : True) => ?_
      exact .ok (stopSession_alike h ws'.id observed)

theorem cutGap_alike (h : Alike db db') {previous previous' : Option AgentStateEvent}
    (hprevious : SameReceipt previous previous') {session session' : Option WorkSession}
    (hsession : SameSession session session') (interval observed : Int) :
    Alike (cutGap db interval previous observed session).1
        (cutGap db' interval previous' observed session').1 ∧
      SameSession (cutGap db interval previous observed session).2
        (cutGap db' interval previous' observed session').2 := by
  rcases hprevious.cases with ⟨rfl, rfl⟩ | ⟨e, e', rfl, rfl, he⟩
  · exact ⟨h, hsession⟩
  · rcases hsession.cases with ⟨rfl, rfl⟩ | ⟨ws, ws', rfl, rfl, hws⟩
    · exact ⟨h, rfl⟩
    · obtain ⟨hid, _⟩ := WorkSession.eq_of_credited hws
      obtain ⟨hstatus, hat, hevery⟩ := AgentStateEvent.eq_of_credited he
      unfold cutGap leaseExpired leaseEnd
      dsimp only
      rw [hid, hstatus, hat, hevery]
      split
      · exact ⟨stopSession_alike h ws'.id _, rfl⟩
      · exact ⟨h, congrArg some hws⟩

theorem leaveWork_alike (h : Alike db db') {session session' : Option WorkSession}
    (hsession : SameSession session session') (taskId projectId : Option Nat) (observed : Int) :
    Alike (leaveWork db taskId projectId observed session).1
        (leaveWork db' taskId projectId observed session').1 ∧
      SameSession (leaveWork db taskId projectId observed session).2
        (leaveWork db' taskId projectId observed session').2 := by
  rcases hsession.cases with ⟨rfl, rfl⟩ | ⟨ws, ws', rfl, rfl, hws⟩
  · exact ⟨h, rfl⟩
  · obtain ⟨hid, htask, hproject, _⟩ := WorkSession.eq_of_credited hws
    unfold Dayfinch.leaveWork
    dsimp only
    rw [hid, htask, hproject]
    split
    · exact ⟨stopSession_alike h ws'.id observed, rfl⟩
    · exact ⟨h, congrArg some hws⟩

theorem insertWorkSession_alike (h : Alike db db') {row row' : WorkSession}
    (hrow : row.credited = row'.credited) :
    Agree Alike (insertWorkSession db row) (insertWorkSession db' row') := by
  have hreferences : referencesExist db row.deviceId row.userId row.projectId row.taskId =
      referencesExist db' row'.deviceId row'.userId row'.projectId row'.taskId := by
    rw [← referencesExist_credited db, ← referencesExist_credited db', h]
    show referencesExist _ row.credited.deviceId row.credited.userId row.credited.projectId
      row.credited.taskId = _
    rw [hrow]
    rfl
  have hslot : liveSlotTaken db row = liveSlotTaken db' row' := by
    have hcredited : ∀ (db : Database) (row : WorkSession),
        liveSlotTaken db.credited row.credited = liveSlotTaken db row := fun _ _ => List.any_map
    rw [← hcredited db, ← hcredited db', h, hrow]
  unfold Dayfinch.insertWorkSession
  rw [hreferences, hslot]
  split
  · exact .error _ _
  · split
    · exact .error _ _
    · refine .ok ?_
      have hcredited : ∀ (db : Database) (row : WorkSession),
          ({ db with workSessions := db.workSessions ++ [row], nextId := db.nextId + 1 } :
            Database).credited =
          { db.credited with
            workSessions := db.credited.workSessions ++ [row.credited]
            nextId := db.credited.nextId + 1 } := by
        intro db row
        unfold Database.credited
        rw [List.map_append]
        rfl
      unfold Alike
      rw [hcredited, hcredited, h, hrow]

theorem openSession_alike (h : Alike db db') (call : SyncCall) (adm : Admission)
    (now now' observed : Int) :
    Agree (fun r r' => Alike r.1 r'.1 ∧ r.2 = r'.2) (openSession now db call adm observed)
      (openSession now' db' call adm observed) := by
  have hid : db.nextId = db'.nextId := by
    show db.credited.nextId = _
    rw [h]
    rfl
  have hrow : (newWorkSession now db call adm observed).credited =
      (newWorkSession now' db' call adm observed).credited := by
    unfold newWorkSession
    rw [hid]
    rfl
  refine Agree.bind (insertWorkSession_alike h hrow) fun db1 db1' h1 => .ok ⟨?_, hid⟩
  show Alike (if _ then _ else _) (if _ then _ else _)
  split
  · show Alike (startSegment db1 db.nextId observed) (startSegment db1' db'.nextId observed)
    rw [hid]
    exact startSegment_alike h1 db'.nextId observed
  · exact h1

theorem continueSession_alike (h : Alike db db') (call : SyncCall) (status : SessionStatus)
    {session session' : WorkSession} (hsession : session.credited = session'.credited)
    (now now' observed : Int) :
    Alike (continueSession now db call status observed session)
      (continueSession now' db' call status observed session') := by
  obtain ⟨hid, _, _, hstatus, _⟩ := WorkSession.eq_of_credited hsession
  have hmoved : Alike (moveSegment db call status observed session)
      (moveSegment db' call status observed session') := by
    unfold moveSegment
    rw [hid, hstatus]
    split
    · exact closeSegment_alike h session'.id _
    · split
      · exact startSegment_alike h session'.id observed
      · exact h
  unfold Dayfinch.continueSession
  rw [hid]
  exact updateSession_alike (f := WorkSession.continueAs status (cleanNote call.note) now)
    (g := WorkSession.continueAs status (cleanNote call.note) now') hmoved (fun _ => rfl) (fun _ => rfl)
    session'.id

theorem applyStatus_alike (h : Alike db db') (call : SyncCall) (adm : Admission)
    {session session' : Option WorkSession} (hsession : SameSession session session')
    (now now' observed : Int) :
    Agree (fun r r' => Alike r.1 r'.1 ∧ r.2 = r'.2) (applyStatus now db call adm observed session)
      (applyStatus now' db' call adm observed session') := by
  rcases hsession.cases with ⟨rfl, rfl⟩ | ⟨ws, ws', rfl, rfl, hws⟩
  · have hopen : Agree (fun r r' => Alike r.1 r'.1 ∧ r.2 = r'.2)
        (openSession now db call adm observed >>= fun r => .ok (r.1, some r.2))
        (openSession now' db' call adm observed >>= fun r => .ok (r.1, some r.2)) :=
      Agree.bind (openSession_alike h call adm now now' observed) fun r r' hr =>
        .ok ⟨hr.1, congrArg some hr.2⟩
    unfold Dayfinch.applyStatus
    cases adm.status with
    | stopped => exact .ok ⟨h, rfl⟩
    | active | paused => exact hopen
  · obtain ⟨hid, _⟩ := WorkSession.eq_of_credited hws
    unfold Dayfinch.applyStatus
    cases adm.status with
    | stopped =>
      refine .ok ⟨?_, rfl⟩
      show Alike (stopSession db ws.id observed) _
      rw [hid]
      exact stopSession_alike h ws'.id observed
    | active | paused =>
      exact .ok ⟨continueSession_alike h call _ hws now now' observed, congrArg some hid⟩

theorem recordEvent_alike (h : Alike db db') (call : SyncCall) (adm : Admission)
    (sessionId : Option Nat) (now now' observed : Int) :
    Agree Alike (recordEvent now db call adm observed sessionId)
      (recordEvent now' db' call adm observed sessionId) := by
  unfold Dayfinch.recordEvent
  cases call.eventId with
  | none => exact .ok h
  | some eventId =>
    dsimp only [insertStateEvent, newReceipt]
    rw [← referencesExist_credited db, ← referencesExist_credited db', h]
    split
    · exact .error _ _
    · split
      · exact .error _ _
      · refine .ok ?_
        have hcredited : ∀ (db : Database) (e : AgentStateEvent),
            ({ db with agentStateEvents := db.agentStateEvents ++ [e] } : Database).credited =
            { db.credited with
              agentStateEvents := db.credited.agentStateEvents ++ [e.credited] } := by
          intro db e
          unfold Database.credited
          rw [List.map_append]
          rfl
        unfold Alike
        rw [hcredited, hcredited, h]
        rfl

/-! ## The transaction -/

theorem acceptEvent_alike (h : Alike db db') (tie : AgentStateEvent → Nat) (call : SyncCall)
    (adm : Admission) (now now' : Int) :
    Agree (fun r r' => Alike r.1 r'.1) (acceptEvent (timeBlind tie) now db call adm)
      (acceptEvent (timeBlind tie) now' db' call adm) := by
  have hprevious := previousReceipt_alike h tie call
  have hsession := deviceSession_alike h call
  have hobserved := clampToPrevious_alike hprevious adm.observed
  unfold acceptEvent
  dsimp only
  rw [hobserved]
  generalize clampToPrevious (previousReceipt (timeBlind tie) db' call) adm.observed = observed
  refine Agree.bind (takeOver_alike h call adm.status observed) fun db1 db1' h1 => ?_
  have hcut := cutGap_alike h1 hprevious hsession call.heartbeatIntervalSeconds observed
  generalize cutGap db1 _ _ observed _ = r2 at hcut ⊢
  generalize cutGap db1' _ _ observed _ = r2' at hcut ⊢
  have hleft := leaveWork_alike hcut.1 hcut.2 call.taskId adm.projectId observed
  generalize leaveWork r2.1 _ _ observed _ = r3 at hleft ⊢
  generalize leaveWork r2'.1 _ _ observed _ = r3' at hleft ⊢
  refine Agree.bind (applyStatus_alike hleft.1 call adm hleft.2 now now' observed) fun r r' hr => ?_
  obtain ⟨h4, hid⟩ := hr
  rw [hid]
  refine Agree.bind (recordEvent_alike h4 call adm r'.2 now now' observed) fun db5 db5' h5 => ?_
  exact .ok h5

/-- The owner of both, up to limits. -/
def SameOwner (owner owner' : Option User) : Prop :=
  owner.map User.unlimited = owner'.map User.unlimited

theorem SameOwner.cases {owner owner' : Option User} (h : SameOwner owner owner') :
    (owner = none ∧ owner' = none) ∨
      ∃ u u', owner = some u ∧ owner' = some u' ∧ u.id = u'.id ∧ u.role = u'.role := by
  unfold SameOwner at h
  cases owner with
  | none =>
    cases owner' with
    | none => exact .inl ⟨rfl, rfl⟩
    | some u' => cases h
  | some u =>
    cases owner' with
    | none => cases h
    | some u' =>
      have hu : u.unlimited = u'.unlimited := Option.some.inj h
      simp only [User.unlimited, User.mk.injEq] at hu
      exact .inr ⟨u, u', rfl, rfl, hu.1, hu.2.1⟩

/-- Admissions that differ in the limits of the owner at most. -/
structure SameAdmission (adm adm' : Admission) : Prop where
  eq : adm' = { adm with owner := adm'.owner }
  owner : SameOwner adm.owner adm'.owner

theorem syncTransaction_alike (h : Alike db db') (tie : AgentStateEvent → Nat) (call : SyncCall)
    {adm adm' : Admission} (hadm : SameAdmission adm adm') (now now' : Int) :
    Agree (fun r r' => Alike r.1 r'.1) (syncTransaction (timeBlind tie) now db call adm)
      (syncTransaction (timeBlind tie) now' db' call adm') := by
  have hpolicy : checkDesktopPolicy db call adm = checkDesktopPolicy db' call adm' := by
    have happs : db.effectiveAllowedApps = db'.effectiveAllowedApps := by
      show db.credited.effectiveAllowedApps = db'.credited.effectiveAllowedApps
      rw [h]
    unfold checkDesktopPolicy
    rw [hadm.eq]
    rcases hadm.owner.cases with ⟨hnone, hnone'⟩ | ⟨u, u', hsome, hsome', hid, _⟩
    · simp only [hnone, hnone']
    · simp only [hsome, hsome', hid, happs]
  unfold syncTransaction
  rw [hpolicy]
  refine Agree.bind (R := fun _ _ => True) (Agree.refl (fun _ => trivial) _) fun _ _ _ => ?_
  rcases (duplicateReceipt_alike h call).cases with ⟨hnone, hnone'⟩ | ⟨e, e', hsome, hsome', _⟩
  · rw [hnone, hnone', hadm.eq]
    exact acceptEvent_alike h tie call adm now now'
  · rw [hsome, hsome']
    exact .ok h

/-! ## The limit check -/

/-- Some limit of the owner is reached at the server clock. -/
def limitReached (db : Database) (now : Int) (owner : User) (checkDate : Int) : Bool :=
  (owner.dailyLimitMinutes != 0 &&
      minutes owner.dailyLimitMinutes ≤ trackedDaily db now owner.id checkDate) ||
    (owner.weeklyLimitMinutes != 0 &&
      minutes owner.weeklyLimitMinutes ≤ trackedWeekly db now owner.id checkDate)

theorem checkLimits_eq_ok {db : Database} {now : Int} {owner : User} {checkDate : Int} {u : Unit} :
    checkLimits db now owner checkDate = .ok u ↔ limitReached db now owner checkDate = false := by
  unfold checkLimits limitReached
  rw [Library.bind_eq_ok]
  simp

/-- The heartbeat is an active one of a member with a limit reached. -/
def limitRefuses (now : Int) (db : Database) (call : SyncCall) : Bool :=
  call.status == some .active &&
    (call.device.ownerUserId.bind db.getUser).any fun owner =>
      owner.role == .member &&
        limitReached db now owner (call.observedAt.getD (Datetime.ofInstant now)).date

theorem authorizeTracking_eq_ok {db : Database} {owner : Option User} {projectId : Option Nat}
    {u : User} (h : authorizeTracking db owner projectId = .ok u) : owner = some u := by
  unfold authorizeTracking at h
  cases owner with
  | none => cases h
  | some owner =>
    cases hproject : projectId.bind db.getProject with
    | none =>
      rw [hproject] at h
      cases h
    | some project =>
      rw [hproject] at h
      obtain ⟨_, _, h⟩ := Library.bind_eq_ok.mp h
      obtain ⟨_, _, h⟩ := Library.bind_eq_ok.mp h
      cases h
      rfl

/-- Where the limit check refuses, the heartbeat is rejected. -/
theorem syncWorkSession_of_limitRefuses {tie : AgentStateEvent → Nat} {now : Int} {db : Database}
    {call : SyncCall} (h : limitRefuses now db call = true) :
    (syncWorkSession tie now db call).isOk = false := by
  unfold limitRefuses at h
  rw [Bool.and_eq_true, beq_iff_eq] at h
  obtain ⟨hactive, hreached⟩ := h
  cases hsync : syncWorkSession tie now db call with
  | error e => rfl
  | ok r =>
    unfold syncWorkSession at hsync
    rw [hactive] at hsync
    obtain ⟨adm, hadm, _⟩ := Library.bind_eq_ok.mp hsync
    obtain ⟨hstatus, hadmitted⟩ := admitSync_eq_ok.mp hadm
    have hpassed := hadmitted.active
    unfold admitActive at hpassed
    rw [if_neg (not_not.mpr hstatus)] at hpassed
    obtain ⟨_, _, hpassed⟩ := Library.bind_eq_ok.mp hpassed
    obtain ⟨_, _, hpassed⟩ := Library.bind_eq_ok.mp hpassed
    obtain ⟨owner, howner, hlimits⟩ := Library.bind_eq_ok.mp hpassed
    have heq := authorizeTracking_eq_ok howner
    rw [hadmitted.owner] at heq
    rw [heq, Option.any_some, Bool.and_eq_true, beq_iff_eq] at hreached
    rw [if_pos hreached.1] at hlimits
    rw [checkLimits_eq_ok.mp hlimits] at hreached
    cases hreached.2

theorem limitRefuses_withoutLimits (now : Int) (db : Database) (call : SyncCall) :
    limitRefuses now db.withoutLimits call = false := by
  have hgetUser : ∀ userId, db.withoutLimits.getUser userId =
      (db.getUser userId).map User.unlimited := fun _ => getUser_of_unlimited List.find?_map
  unfold limitRefuses
  cases hbind : call.device.ownerUserId.bind db.withoutLimits.getUser with
  | none => simp
  | some owner =>
    obtain ⟨userId, _, hget⟩ := Option.bind_eq_some_iff.mp hbind
    rw [hgetUser] at hget
    obtain ⟨user, _, rfl⟩ := Option.map_eq_some_iff.mp hget
    simp [limitReached, User.unlimited]

/-! ## Admission -/

theorem authorizeTracking_alike (h : Alike db db') {owner owner' : Option User}
    (howner : SameOwner owner owner') (projectId : Option Nat) :
    Agree (fun u u' => owner = some u ∧ owner' = some u') (authorizeTracking db owner projectId)
      (authorizeTracking db' owner' projectId) := by
  have hproject : db.getProject = db'.getProject := by
    show db.credited.getProject = db'.credited.getProject
    rw [h]
  have hmember : db.projectMemberRole = db'.projectMemberRole := by
    show db.credited.projectMemberRole = db'.credited.projectMemberRole
    rw [h]
  unfold authorizeTracking
  rcases howner.cases with ⟨rfl, rfl⟩ | ⟨u, u', rfl, rfl, hid, hrole⟩
  · exact .error _ _
  · dsimp only
    rw [hproject]
    cases projectId.bind db'.getProject with
    | none => exact .error _ _
    | some project =>
      dsimp only
      rw [hrole, hmember, hid]
      refine Agree.bind (R := fun _ _ => True) (Agree.refl (fun _ => trivial) _) fun _ _ _ => ?_
      refine Agree.bind (R := fun _ _ => True) (Agree.refl (fun _ => trivial) _) fun _ _ _ => ?_
      exact .ok ⟨rfl, rfl⟩

theorem admitSync_alike (h : Alike db db') {call : SyncCall} (hobserved : call.observedAt.isSome)
    {now now' : Int} (hlimit : limitRefuses now db call = limitRefuses now' db' call)
    {status : SessionStatus} (hstatus : call.status = some status) :
    Agree SameAdmission (admitSync now db call status) (admitSync now' db' call status) := by
  obtain ⟨o, ho⟩ := Option.isSome_iff_exists.mp hobserved
  have howner : SameOwner (call.device.ownerUserId.bind db.getUser)
      (call.device.ownerUserId.bind db'.getUser) := by
    cases call.device.ownerUserId with
    | none => rfl
    | some userId => exact getUser_alike h userId
  have htask : checkTask db = checkTask db' := by
    show checkTask db.credited = checkTask db'.credited
    rw [h]
  have hlocked : db.isPeriodLocked = db'.isPeriodLocked := by
    show db.credited.isPeriodLocked = db'.credited.isPeriodLocked
    rw [h]
  have hactive : Agree (fun _ _ => True)
      (admitActive now db call status (call.device.ownerUserId.bind db.getUser)
        (call.selectedProjectId <|> call.device.projectId) o.date)
      (admitActive now' db' call status (call.device.ownerUserId.bind db'.getUser)
        (call.selectedProjectId <|> call.device.projectId) o.date) := by
    unfold admitActive
    by_cases hst : status = .active
    · rw [if_neg (not_not.mpr hst), if_neg (not_not.mpr hst), hlocked]
      refine Agree.bind (R := fun _ _ => True) (Agree.refl (fun _ => trivial) _) fun _ _ _ => ?_
      have hviewer : (call.device.ownerUserId.bind db.getUser).any (·.role == .viewer) =
          (call.device.ownerUserId.bind db'.getUser).any (·.role == .viewer) := by
        rcases howner.cases with ⟨hnone, hnone'⟩ | ⟨u, u', hsome, hsome', _, hrole⟩
        · rw [hnone, hnone']
        · rw [hsome, hsome', Option.any_some, Option.any_some, hrole]
      rw [hviewer]
      refine Agree.bind (R := fun _ _ => True) (Agree.refl (fun _ => trivial) _) fun _ _ _ => ?_
      refine Agree.bind (authorizeTracking_alike h howner _) fun u u' hu => ?_
      obtain ⟨hu, hu'⟩ := hu
      rcases howner.cases with ⟨hnone, _⟩ | ⟨v, v', hsome, hsome', _, hrole⟩
      · rw [hnone] at hu
        cases hu
      · obtain rfl : v = u := Option.some.inj (hsome.symm.trans hu)
        obtain rfl : v' = u' := Option.some.inj (hsome'.symm.trans hu')
        rw [hrole]
        split
        · next hmember =>
            -- for a member, the two limit checks are what the hypothesis speaks of
            have hreached : limitReached db now v o.date = limitReached db' now' v' o.date := by
              simpa [limitRefuses, hstatus, hst, ho, hu, hu', hrole, hmember] using hlimit
            cases hok : limitReached db' now' v' o.date with
            | false =>
              rw [hok] at hreached
              rw [checkLimits_eq_ok (u := ()).mpr hreached, checkLimits_eq_ok (u := ()).mpr hok]
              exact .ok trivial
            | true =>
              rw [hok] at hreached
              cases hcheck : checkLimits db now v o.date with
              | ok u =>
                rw [checkLimits_eq_ok.mp hcheck] at hreached
                cases hreached
              | error e =>
                cases hcheck' : checkLimits db' now' v' o.date with
                | ok u =>
                  rw [checkLimits_eq_ok.mp hcheck'] at hok
                  cases hok
                | error e' => exact .error e e'
        · exact .ok trivial
    · rw [if_pos hst, if_pos hst]
      exact .ok trivial
  unfold admitSync
  rw [ho]
  refine Agree.bind hactive fun _ _ _ => ?_
  rw [htask]
  refine Agree.bind (R := fun p p' => p = p') (Agree.refl (fun _ => rfl) _) fun p p' hp => ?_
  obtain rfl : p = p' := hp
  dsimp only [Option.getD_some]
  cases o.toUtc? with
  | none => exact .error _ _
  | some observed => exact .ok ⟨rfl, howner⟩

theorem syncWorkSession_alike (h : Alike db db') (tie : AgentStateEvent → Nat) {call : SyncCall}
    (hobserved : call.observedAt.isSome) {now now' : Int}
    (hlimit : limitRefuses now db call = limitRefuses now' db' call) :
    Agree (fun r r' => Alike r.1 r'.1) (syncWorkSession (timeBlind tie) now db call)
      (syncWorkSession (timeBlind tie) now' db' call) := by
  unfold syncWorkSession
  cases hstatus : call.status with
  | none => exact .ok h
  | some status =>
    refine Agree.bind (admitSync_alike h hobserved hlimit hstatus) fun adm adm' hadm => ?_
    exact syncTransaction_alike h tie call hadm now now'

end

/-! ## One event, delivered twice -/

/-- An event of a journal with the server clocks of its two deliveries. -/
structure Upload where
  tie : AgentStateEvent → Nat
  call : SyncCall
  online : Int
  offline : Int

/-- The server accepts the event at one of its clocks. -/
def Upload.accepted (clock : Upload → Int) (db : Database) (d : Upload) : Bool :=
  (syncWorkSession (timeBlind d.tie) (clock d) db d.call).isOk

/-- The delivery as a step. -/
def Upload.step (clock : Upload → Int) (db : Database) (d : Upload) : Database :=
  Dayfinch.step db (.sync (timeBlind d.tie) (clock d) d.call)

/-- Both clocks give the limits the same verdict on the event, if it would be accepted without limits. -/
def limitsSettled (db : Database) (d : Upload) : Bool :=
  !d.accepted Upload.online db.withoutLimits ||
    limitRefuses d.online db d.call == limitRefuses d.offline db d.call

/-- The users are the same, limits included, and the rest is alike. -/
structure SameCredit (db db' : Database) : Prop where
  alike : Alike db db'
  users : db.users = db'.users

theorem trackedOn_credited (db : Database) (now : Int) (userId : Nat) (p : Int → Bool) :
    trackedOn db.credited now userId p = trackedOn db now userId p := by
  unfold trackedOn
  show (((db.workSessions.map WorkSession.credited).filter _).flatMap _).sum = _
  rw [List.filter_map, List.flatMap_map]
  rfl

/-- The limits see the same time in both databases. -/
theorem limitRefuses_sameCredit {db db' : Database} (h : SameCredit db db') (now : Int)
    (call : SyncCall) : limitRefuses now db call = limitRefuses now db' call := by
  have hgetUser : db.getUser = db'.getUser := by
    funext userId
    unfold Database.getUser Database.getUserAny
    rw [h.users]
  have htracked : trackedOn db now = trackedOn db' now := by
    funext userId p
    rw [← trackedOn_credited db, ← trackedOn_credited db', h.alike]
  unfold limitRefuses limitReached trackedDaily trackedWeekly
  rw [hgetUser, htracked]

/-- A heartbeat leaves the users as they are. -/
theorem step_sync_users (db : Database) (tie : AgentStateEvent → Nat) (now : Int) (call : SyncCall) :
    (step db (.sync tie now call)).users = db.users := by
  rcases step_sync db tie now call with hsame | ⟨adm, _, _, hacc, _⟩
  · rw [hsame]
  · rw [hacc.frame]

section

variable {db db' : Database} {d : Upload}

/-- Where the limits are settled, both deliveries have the same outcome. -/
theorem SameCredit.agree (h : SameCredit db db') (hobserved : d.call.observedAt.isSome)
    (hsettled : limitsSettled db d = true) :
    Agree (fun r r' => Alike r.1 r'.1) (syncWorkSession (timeBlind d.tie) d.online db d.call)
      (syncWorkSession (timeBlind d.tie) d.offline db' d.call) := by
  by_cases hverdict : limitRefuses d.online db d.call = limitRefuses d.offline db d.call
  · exact syncWorkSession_alike h.alike d.tie hobserved (hverdict.trans (limitRefuses_sameCredit h d.offline d.call))
  · -- the verdicts differ, but the event is rejected without limits too
    have hrejected : d.accepted Upload.online db.withoutLimits = false := by
      unfold limitsSettled at hsettled
      rw [Bool.or_eq_true, Bool.not_eq_true', beq_iff_eq] at hsettled
      exact hsettled.resolve_right hverdict
    have hfails : ∀ (now1 : Int) {db1 : Database}, Alike db.withoutLimits db1 →
        (syncWorkSession (timeBlind d.tie) now1 db1 d.call).isOk = false := by
      intro now1 db1 halike
      cases hrefuses : limitRefuses now1 db1 d.call with
      | true => exact syncWorkSession_of_limitRefuses hrefuses
      | false =>
        have hagree := syncWorkSession_alike halike d.tie hobserved
          ((limitRefuses_withoutLimits d.online db d.call).trans hrefuses.symm)
        exact hagree.isOk_eq.symm.trans hrejected
    have hfirst : Alike db.withoutLimits db := (alike_withoutLimits db).symm
    cases hrun : syncWorkSession (timeBlind d.tie) d.online db d.call with
    | ok r => exact absurd (hfails d.online hfirst) (by rw [hrun]; exact Bool.noConfusion)
    | error e =>
      cases hrun' : syncWorkSession (timeBlind d.tie) d.offline db' d.call with
      | ok r =>
        exact absurd (hfails d.offline (hfirst.trans h.alike))
          (by rw [hrun']; exact Bool.noConfusion)
      | error e' => exact .error e e'

theorem commit_alike (h : Alike db db') {x x' : Except Error (Database × Option WorkSession)}
    (hagree : Agree (fun r r' => Alike r.1 r'.1) x x') :
    Alike (commit db (x.map (·.1))) (commit db' (x'.map (·.1))) := by
  cases hagree with
  | ok halike => exact halike
  | error => exact h

theorem sameCredit_step (h : SameCredit db db') (hobserved : d.call.observedAt.isSome)
    (hsettled : limitsSettled db d = true) :
    SameCredit (d.step Upload.online db) (d.step Upload.offline db') := by
  constructor
  · exact commit_alike h.alike (h.agree hobserved hsettled)
  · unfold Upload.step
    rw [step_sync_users, step_sync_users]
    exact h.users

/-- Both deliveries accept the event, or both reject it, exactly where the limits are settled. -/
theorem SameCredit.accepted_iff (h : SameCredit db db') (hobserved : d.call.observedAt.isSome) :
    d.accepted Upload.online db = d.accepted Upload.offline db' ↔ limitsSettled db d = true := by
  constructor
  · intro hsame
    by_contra hunsettled
    obtain ⟨haccepted, hverdict⟩ : d.accepted Upload.online db.withoutLimits = true ∧
        ¬ limitRefuses d.online db d.call = limitRefuses d.offline db d.call := by
      simpa [limitsSettled] using hunsettled
    -- a database alike where the limits do not refuse accepts
    have haccepts : ∀ {db1 : Database} {now1 : Int}, Alike db.withoutLimits db1 →
        limitRefuses now1 db1 d.call = false →
        (syncWorkSession (timeBlind d.tie) now1 db1 d.call).isOk = true := by
      intro db1 now1 halike hrefuses
      have hagree := syncWorkSession_alike halike d.tie hobserved
        ((limitRefuses_withoutLimits d.online db d.call).trans hrefuses.symm)
      exact hagree.isOk_eq.symm.trans haccepted
    have hfirst : Alike db.withoutLimits db := (alike_withoutLimits db).symm
    rw [limitRefuses_sameCredit h d.offline d.call] at hverdict
    unfold Upload.accepted at hsame
    cases honline : limitRefuses d.online db d.call with
    | true =>
      have hoffline : limitRefuses d.offline db' d.call = false := by
        rw [honline] at hverdict
        simpa using hverdict
      rw [syncWorkSession_of_limitRefuses honline, haccepts (hfirst.trans h.alike) hoffline] at hsame
      cases hsame
    | false =>
      have hoffline : limitRefuses d.offline db' d.call = true := by
        rw [honline] at hverdict
        simpa using hverdict
      rw [haccepts hfirst honline, syncWorkSession_of_limitRefuses hoffline] at hsame
      cases hsame
  · intro hsettled
    exact (h.agree hobserved hsettled).isOk_eq

end

/-! ## A journal, delivered twice -/

/-- What the server answers to the events of a journal, in order. -/
def answers (clock : Upload → Int) : Database → List Upload → List Bool
  | _, [] => []
  | db, d :: journal => d.accepted clock db :: answers clock (d.step clock db) journal

/-- Both deliveries accept the same events and end in the same sessions and segments. -/
structure SameDelivery (db : Database) (journal : List Upload) : Prop where
  answers : answers Upload.online db journal = answers Upload.offline db journal
  sessions :
    (run (Upload.step Upload.online) db journal).workSessions.map WorkSession.credited =
      (run (Upload.step Upload.offline) db journal).workSessions.map WorkSession.credited
  segments : (run (Upload.step Upload.online) db journal).segments =
    (run (Upload.step Upload.offline) db journal).segments

/-- The answers agree exactly when the limits are settled at every event, and then so do the databases. -/
theorem answers_eq_iff {journal : List Upload} (hobserved : ∀ d ∈ journal, d.call.observedAt.isSome) :
    ∀ {db db' : Database}, SameCredit db db' →
      (answers Upload.online db journal = answers Upload.offline db' journal ↔
        Guarded (Upload.step Upload.online) (fun db d => limitsSettled db d = true) db journal) := by
  induction journal with
  | nil => intro db db' _; exact ⟨fun _ => trivial, fun _ => rfl⟩
  | cons d journal ih =>
    intro db db' h
    have hd := hobserved d List.mem_cons_self
    rw [answers, answers, List.cons.injEq, h.accepted_iff hd, Library.guarded_cons]
    refine and_congr_right fun hsettled => ?_
    exact ih (fun d' hd' => hobserved d' (List.mem_cons_of_mem d hd')) (sameCredit_step h hd hsettled)

theorem sameCredit_run {journal : List Upload} (hobserved : ∀ d ∈ journal, d.call.observedAt.isSome) :
    ∀ {db db' : Database}, SameCredit db db' →
      Guarded (Upload.step Upload.online) (fun db d => limitsSettled db d = true) db journal →
      SameCredit (run (Upload.step Upload.online) db journal)
        (run (Upload.step Upload.offline) db' journal) := by
  induction journal with
  | nil => intro db db' h _; exact h
  | cons d journal ih =>
    intro db db' h hguarded
    obtain ⟨hsettled, hguarded⟩ := hguarded
    have hd := hobserved d List.mem_cons_self
    exact ih (fun d' hd' => hobserved d' (List.mem_cons_of_mem d hd')) (sameCredit_step h hd hsettled) hguarded

/-- **When the time of delivery does not matter**: exactly when, at every event that passes every other
check, both clocks see the limits of the owner reached or both do not. -/
theorem delivery_iff (db : Database) (journal : List Upload)
    (hobserved : ∀ d ∈ journal, d.call.observedAt.isSome) :
    SameDelivery db journal ↔
      Guarded (Upload.step Upload.online) (fun db d => limitsSettled db d = true) db journal := by
  have hsame : SameCredit db db := ⟨rfl, rfl⟩
  constructor
  · intro h
    exact (answers_eq_iff hobserved hsame).mp h.answers
  · intro hguarded
    have hend := sameCredit_run hobserved hsame hguarded
    have halike : (run (Upload.step Upload.online) db journal).credited =
        (run (Upload.step Upload.offline) db journal).credited := hend.alike
    refine ⟨(answers_eq_iff hobserved hsame).mpr hguarded, ?_, ?_⟩
    · show (run _ db journal).credited.workSessions = _
      rw [halike]
      rfl
    · show (run _ db journal).credited.segments = _
      rw [halike]
      rfl

/-- The office with a daily limit of eight hours. -/
def officeWithLimit : Database :=
  { office with
    users := [{ id := 1, role := .member, enabled := true, dailyLimitMinutes := 480,
                weeklyLimitMinutes := 0 }] }

/-- An event of the laptop, delivered at once and again later. -/
def deliveredTwice (eventId : Nat) (observedAt offline : Int) : Upload where
  tie := fun _ => 0
  call := pressed laptop eventId .active observedAt
  online := observedAt
  offline := offline

/-- A delay of an hour leaves the limit out of sight. -/
theorem delivery_iff_hour :
    SameDelivery officeWithLimit
      [deliveredTwice 1 (minutes 600) (minutes 660), deliveredTwice 2 (minutes 601) (minutes 661)] :=
  (delivery_iff officeWithLimit _ (by decide)).mpr (by decide +kernel)

/-! ## Late -/

/-- The instant of an event. -/
def Upload.observed (d : Upload) : Option Int := d.call.observedAt.bind Datetime.toUtc?

/-- The clock takes the event: no earlier than five minutes before it and within ninety days. -/
def Upload.inWindow (clock : Upload → Int) (d : Upload) : Bool :=
  d.observed.any fun t => clock d - days 90 ≤ t && t ≤ clock d + minutes 5

/-- A journal of one device, in the order of its events, and two orderly deliveries of it. -/
structure IsJournal (device : Device) (journal : List Upload) : Prop where
  device_eq : ∀ d ∈ journal, d.call.device = device
  eventId_isSome : ∀ d ∈ journal, d.call.eventId.isSome = true
  distinct : journal.Pairwise fun d d' => d.call.eventId ≠ d'.call.eventId
  ordered : journal.Pairwise fun d d' => d.observed.all fun t => d'.observed.all fun t' => t ≤ t'
  window : ∀ d ∈ journal, d.inWindow Upload.online && d.inWindow Upload.offline
  clocks : journal.Pairwise fun d d' => d.online ≤ d'.online ∧ d.offline ≤ d'.offline

/-- Two minutes of work, delivered as they happen and ten hours later. -/
def lateJournal : List Upload :=
  [deliveredTwice 1 (minutes 600) (minutes 1200), deliveredTwice 2 (minutes 601) (minutes 1200)]

/-- The time of delivery can matter. -/
theorem delivery_differs :
    ¬ ∀ (db : Database) (device : Device) (journal : List Upload), IsJournal device journal →
      SameDelivery db journal := by
  intro h
  have hjournal : IsJournal laptop lateJournal := by
    constructor <;> decide +kernel
  exact absurd (h officeWithLimit laptop lateJournal hjournal).answers (by decide +kernel)

end Dayfinch
