/-
# Dayfinch.Work.PolicyCommit -- what a commit leaves of the policy, and of the other transactions

A transaction that has nothing left to do takes a sound database to a sound one, and what holds of the other
running transactions still holds: their locks are in the way of every change that could matter to them.
-/
import Dayfinch.Work.PolicyDiscipline

namespace Dayfinch

open Library (UniqueKey Transaction Effect)
open PolicyChange (applyAll settleSession settleSegment insertedIds startedIds)

/-! ## Rows and policies -/

@[simp] theorem settleSession_id (cs : List PolicyChange) (ws : WorkSession) :
    (settleSession cs ws).id = ws.id := (PolicyChange.settleSession_frame cs ws).1

@[simp] theorem settleSession_deviceId (cs : List PolicyChange) (ws : WorkSession) :
    (settleSession cs ws).deviceId = ws.deviceId := (PolicyChange.settleSession_frame cs ws).2.1

@[simp] theorem settleSession_userId (cs : List PolicyChange) (ws : WorkSession) :
    (settleSession cs ws).userId = ws.userId := (PolicyChange.settleSession_frame cs ws).2.2

@[simp] theorem settleSegment_id (cs : List PolicyChange) (g : Segment) : (settleSegment cs g).id = g.id :=
  (PolicyChange.settleSegment_frame cs g).1

@[simp] theorem settleSegment_sessionId (cs : List PolicyChange) (g : Segment) :
    (settleSegment cs g).sessionId = g.sessionId := (PolicyChange.settleSegment_frame cs g).2

theorem nonDesktop_congr (db : Database) {ws ws' : WorkSession} (h : ws'.deviceId = ws.deviceId) :
    db.nonDesktop ws' = db.nonDesktop ws := by
  unfold Database.nonDesktop
  rw [h]

theorem allowedFor_applyAll_of_not_rules {cs : List PolicyChange} {userId : Option Nat}
    (h : ∀ x ∈ cs, ¬ x.rules userId) (db : Database) :
    (applyAll cs db).allowedFor userId = db.allowedFor userId := by
  rw [Database.allowedFor_eq, Database.allowedFor_eq, PolicyChange.applyAll_policyOf_of_not_rules h]

theorem allowedFor_applyAll_congr (cs : List PolicyChange) {db db' : Database} {userId : Option Nat}
    (h : db'.policyOf userId = db.policyOf userId) :
    (applyAll cs db').allowedFor userId = (applyAll cs db).allowedFor userId := by
  rw [Database.allowedFor_eq, Database.allowedFor_eq, PolicyChange.applyAll_policyOf_congr cs h]

/-! ## What the locks rule out -/

section

variable {db : Database} {c t : PolicyTransaction}

theorem Enforces.of_rules (hc : Disciplined db c) {x : PolicyChange} (hx : x ∈ c.changes) {userId : Option Nat}
    (hrules : x.rules userId) : Enforces c userId ∧ c.request.isSync = false := by
  have hok := hc.changes x hx
  cases x with
  | allowedApps value => exact ⟨.inl hok.1, hok.2⟩
  | memberSettings u row => exact ⟨.inr ⟨u, hrules, hok.1⟩, hok.2⟩
  | _ => exact False.elim hrules

theorem Disciplined.not_rules_of_sync (hc : Disciplined db c) (hsync : c.request.isSync = true)
    (userId : Option Nat) : ∀ x ∈ c.changes, ¬ x.rules userId := by
  intro x hx hrules
  rw [(Enforces.of_rules hc hx hrules).2] at hsync
  exact Bool.false_ne_true hsync

/-- Nobody changes the policy of a user while somebody holds its locks. -/
theorem Disciplined.not_rules_of_member (hc : Disciplined db c) (hapart : c.Apart t) {u : Nat}
    {m : Library.LockMode} (hglobal : (.global, .shared) ∈ t.locks) (hmember : (.member u, m) ∈ t.locks) :
    ∀ x ∈ c.changes, ¬ x.rules (some u) := by
  intro x hx hrules
  rcases (Enforces.of_rules hc hx hrules).1 with hexclusive | ⟨v, hv, hexclusive, _⟩
  · exact hapart.exclusive hexclusive hglobal
  · cases hv
    exact hapart.exclusive hexclusive hmember

theorem Disciplined.not_rules_of_enforces (hc : Disciplined db c) (hapart : c.Apart t) {userId : Option Nat}
    (h : Enforces t userId) : ∀ x ∈ c.changes, ¬ x.rules userId := by
  rcases h with hexclusive | ⟨u, rfl, hmember, hglobal⟩
  · intro x hx hrules
    rcases (Enforces.of_rules hc hx hrules).1 with hexclusive' | ⟨v, _, _, hshared⟩
    · exact hapart.exclusive hexclusive' hexclusive
    · exact hapart.symm.exclusive hexclusive hshared
  · exact hc.not_rules_of_member hapart hglobal hmember

/-- Where one transaction may open work, no other enforces the policy. -/
theorem Permits.not_enforces {ws : WorkSession} (h : Permits db t ws) (hnonDesktop : db.nonDesktop ws = true)
    (hapart : c.Apart t) : ¬ Enforces c ws.userId := by
  obtain ⟨u, huser, hglobal, hmember, _⟩ := h hnonDesktop
  rintro (hexclusive | ⟨v, hv, hexclusive, _⟩)
  · exact hapart.exclusive hexclusive hglobal
  · rw [huser] at hv
    cases hv
    exact hapart.exclusive hexclusive hmember

/-- Where one transaction may open work, no other stops it. -/
theorem Workable.not_stoppable (hdb : PolicySound db) {ws : WorkSession} (h : Workable db t ws)
    (hws : ws ∈ db.workSessions) (hapart : c.Apart t) : ¬ Stoppable db c ws.id := by
  rintro ⟨row, hrow, hid, hcase⟩
  obtain rfl := hdb.sessionKeys.eq hrow hws hid
  rcases hcase with ⟨_, hdevice | ⟨u, huser, htimer⟩⟩ | hrestricted
  · exact hapart.exclusive hdevice h.locks.device
  · exact hapart.exclusive htimer (h.locks.timer u huser)
  · exact h.permits.not_enforces hrestricted.nonDesktop hapart hrestricted.enforces

theorem Disciplined.stoppable (hc : Disciplined db c) {id : Nat} (h : StopsSession c id) : Stoppable db c id := by
  rcases h with ⟨x, hx, hstops⟩ | ⟨a, ha, hstops⟩
  · have hok := hc.changes x hx
    cases x with
    | sessionStopped row endedAt =>
      cases hstops
      exact hok
    | _ => exact False.elim hstops
  · have hok := hc.todo a ha
    cases a with
    | stopSessions ids endedAt => exact hok id hstops
    | _ => exact False.elim hstops

/-- A session that is stopped was committed. -/
theorem Disciplined.stopped_mem (hc : Disciplined db c) {id : Nat} (h : StopsSession c id) :
    id ∈ db.workSessions.map (·.id) := by
  obtain ⟨row, hrow, hid, _⟩ := hc.stoppable h
  exact hid ▸ List.mem_map_of_mem hrow

/-- A session that is inserted was not committed. -/
theorem Disciplined.inserted_fresh (hc : Disciplined db c) {ws : WorkSession}
    (h : .sessionInserted ws ∈ c.changes) : ws.id ∉ db.workSessions.map (·.id) := by
  intro hmem
  exact List.disjoint_of_nodup_append hc.sessionKeys hmem (PolicyChange.mem_insertedIds.mpr ⟨ws, h, rfl⟩)

theorem WorksIn.of_change {x : PolicyChange} (hx : x ∈ c.changes) {id : Nat} (h : x.works id) : WorksIn c id :=
  .inl ⟨x, hx, h⟩

/-- The rows of a transaction that is not stopping the session. -/
theorem Disciplined.not_stops_of_works (hc : Disciplined db c) {id : Nat} (h : WorksIn c id) :
    ∀ x ∈ c.changes, ¬ x.stops id := fun x hx hstops => hc.apart id h (.inl ⟨x, hx, hstops⟩)

end

/-! ## The commit -/

section

variable {db : Database} {c : PolicyTransaction} (hc : Disciplined db c)

include hc

theorem Disciplined.continued (hdb : PolicySound db) {id : Nat} {status : SessionStatus} {note : String} {now : Int}
    (h : .sessionContinued id status note now ∈ c.changes) :
    ∀ ws ∈ db.workSessions, ws.id = id → ws.endedAt = none ∧ (status = .active → Permits db c ws) := by
  intro ws hws hid
  obtain ⟨row, hrow, hrowId, hended, hpermits⟩ := hc.changes _ h
  obtain rfl := hdb.sessionKeys.eq hws hrow (hid.trans hrowId.symm)
  exact ⟨hended, hpermits⟩

/-- A committed session that is not stopped after the changes has not ended, and if it is active it was active
or may be worked in. -/
theorem Disciplined.settled (hdb : PolicySound db) {ws : WorkSession} (hws : ws ∈ db.workSessions)
    (hstatus : (settleSession c.changes ws).status ≠ .stopped) :
    (∀ x ∈ c.changes, ¬ x.stops ws.id) ∧ (settleSession c.changes ws).endedAt = none ∧
      ((settleSession c.changes ws).status = .active →
        ws.status = .active ∨ WorksIn c ws.id ∧ Permits db c ws) := by
  have hstops : ∀ x ∈ c.changes, ¬ x.stops ws.id := by
    intro x hx hstop
    refine hstatus (PolicyChange.settleSession_of_stops ⟨x, hx, hstop⟩ fun y hy hworks => ?_)
    exact hc.apart ws.id (.of_change hy hworks) (.inl ⟨x, hx, hstop⟩)
  obtain ⟨hended, hcase⟩ := PolicyChange.settleSession_of_not_stops hstops
  refine ⟨hstops, ?_⟩
  rcases hcase with hsame | ⟨note, now, hcontinued⟩
  · rw [hended]
    exact ⟨hdb.unended ws hws fun hstopped => hstatus (hsame.trans hstopped), fun hactive =>
      .inl (hsame.symm.trans hactive)⟩
  · obtain ⟨hunended, hpermits⟩ := hc.continued hdb hcontinued ws hws rfl
    exact ⟨hended.trans hunended, fun hactive => .inr ⟨.of_change hcontinued rfl, hpermits hactive⟩⟩

/-- The session that is inserted is the one that is there, as far as it matters. -/
theorem Disciplined.inserted {ws : WorkSession} (h : .sessionInserted ws ∈ c.changes) {rest : List PolicyChange}
    (hrest : rest <:+ c.changes) :
    (settleSession rest ws).endedAt = none ∧ (settleSession rest ws).status = ws.status := by
  have hworks : WorksIn c ws.id := .of_change h rfl
  have hstops : ∀ x ∈ rest, ¬ x.stops ws.id := fun x hx => hc.not_stops_of_works hworks x (hrest.subset hx)
  obtain ⟨hended, hcase⟩ := PolicyChange.settleSession_of_not_stops hstops
  refine ⟨hended.trans (hc.changes _ h).1, ?_⟩
  rcases hcase with hsame | ⟨note, now, hcontinued⟩
  · exact hsame
  · obtain ⟨row, hrow, hid, _⟩ := hc.changes _ (hrest.subset hcontinued)
    exact absurd (hid ▸ List.mem_map_of_mem hrow) (hc.inserted_fresh h)

/-- The sessions after the commit. -/
theorem Disciplined.sessionKeys_commit : UniqueKey (·.id) (applyAll c.changes db).workSessions := by
  unfold UniqueKey
  rw [PolicyChange.applyAll_sessionIds]
  exact hc.sessionKeys

/-- A session in which work is opened is there after the commit, and has not ended. -/
theorem Disciplined.workable_commit {id : Nat} (hworks : WorksIn c id) (h : HasWorkable db c id) :
    ∃ ws ∈ (applyAll c.changes db).workSessions, ws.id = id ∧ ws.endedAt = none ∧ Permits db c ws := by
  obtain ⟨ws, hmem, rfl, hworkable⟩ := h
  have hpermits : ∀ cs, Permits db c (settleSession cs ws) := by
    intro cs
    unfold Permits
    rw [nonDesktop_congr db (settleSession_deviceId _ _), settleSession_userId]
    exact hworkable.permits
  rcases hmem with hcommitted | hinserted
  · refine ⟨_, PolicyChange.settleSession_mem hcommitted, settleSession_id _ _, ?_, hpermits _⟩
    rw [(PolicyChange.settleSession_of_not_stops (hc.not_stops_of_works hworks)).1]
    exact hworkable.unended
  · obtain ⟨rest, hrest, hmem⟩ := PolicyChange.inserted_mem hinserted
    exact ⟨_, hmem, settleSession_id _ _, (hc.inserted hinserted hrest).1, hpermits _⟩

/-- A segment that is open after the commit was open and nobody stops its session, or it is started. -/
theorem Disciplined.open_commit (hdone : c.todo = []) {g' : Segment} (hg' : g' ∈ (applyAll c.changes db).segments)
    (hopen : g'.endedAt = none) :
    (∃ g ∈ db.segments, (g'.id = g.id ∧ g'.sessionId = g.sessionId) ∧ g.endedAt = none ∧ ¬ EndsSegment c g ∧
      ¬ StopsSession c g.sessionId) ∨ WorksIn c g'.sessionId ∧ HasWorkable db c g'.sessionId := by
  rcases PolicyChange.mem_applyAll_segments hg' with ⟨g, hg, rfl⟩ | ⟨g, rest, hg, hrest, rfl⟩
  · obtain ⟨hwas, hnot⟩ := PolicyChange.settleSegment_open hopen
    have hends : ¬ EndsSegment c g := by
      rintro (⟨x, hx, hends⟩ | ⟨a, ha, _⟩)
      · exact hnot x hx hends
      · rw [hdone] at ha
        exact absurd ha List.not_mem_nil
    exact .inl ⟨g, hg, ⟨settleSegment_id _ _, settleSegment_sessionId _ _⟩, hwas, hends,
      fun hstops => hends (hc.ending g hg hwas hstops)⟩
  · rw [settleSegment_sessionId]
    exact .inr ⟨.of_change hg rfl, hc.changes _ hg⟩

/-- A session of the commit that belongs to a committed one is that one, settled. -/
theorem Disciplined.committed_of_id {ws' : WorkSession} (hws' : ws' ∈ (applyAll c.changes db).workSessions)
    (hid : ws'.id ∈ db.workSessions.map (·.id)) :
    ∃ ws ∈ db.workSessions, ws' = settleSession c.changes ws := by
  rcases PolicyChange.mem_applyAll_sessions hws' with hcommitted | ⟨ws, rest, hinserted, _, rfl⟩
  · exact hcommitted
  · rw [settleSession_id] at hid
    exact absurd hid (hc.inserted_fresh hinserted)

/-- Nobody tracks past the policy that the commit leaves. -/
theorem Disciplined.noBypass_commit (hdb : PolicySound db) (hdone : c.todo = []) :
    NoBypass (applyAll c.changes db) := by
  intro ws' hws' hnonDesktop htracks hpolicy
  rw [PolicyChange.applyAll_nonDesktop] at hnonDesktop
  -- whoever works in the session has a permit, and changes no policy
  have hrefuse : ∀ ws : WorkSession, ws.deviceId = ws'.deviceId → ws.userId = ws'.userId → ∀ id, WorksIn c id →
      Permits db c ws → False := by
    intro ws hdevice huser id hworks hpermits
    have hsync : c.request.isSync = true := by
      by_contra hnot
      exact hc.idle (by simpa using hnot) id hworks
    obtain ⟨u, hu, _, _, hall⟩ := hpermits (by rw [nonDesktop_congr db hdevice]; exact hnonDesktop)
    rw [allowedFor_applyAll_of_not_rules (hc.not_rules_of_sync hsync _), ← huser, hu, hall] at hpolicy
    exact absurd hpolicy nofun
  have hnone : ∀ {p : PolicyAction → Prop}, ¬ ∃ a ∈ c.todo, p a := by
    rintro p ⟨a, ha, _⟩
    rw [hdone] at ha
    exact absurd ha List.not_mem_nil
  unfold Database.tracks at htracks
  rcases Bool.or_eq_true_iff.mp htracks with hactive | hopen
  · -- an active session was active, or is worked in
    replace hactive := beq_iff_eq.mp hactive
    rcases PolicyChange.mem_applyAll_sessions hws' with ⟨ws, hws, rfl⟩ | ⟨ws, rest, hinserted, hrest, rfl⟩
    · obtain ⟨hnot, _, hcase⟩ := hc.settled hdb hws (by rw [hactive]; nofun)
      rw [settleSession_userId] at hpolicy
      rw [nonDesktop_congr db (settleSession_deviceId _ _)] at hnonDesktop
      rcases hcase hactive with hwas | ⟨hworks, hpermits⟩
      · rcases hc.sessions ws hws hwas hnonDesktop hpolicy with (⟨x, hx, hstops⟩ | hlater) | hfinds
        · exact hnot x hx hstops
        · exact hnone hlater
        · exact hnone hfinds
      · exact hrefuse ws (by simp) (by simp) _ hworks hpermits
    · rw [(hc.inserted hinserted hrest).2] at hactive
      exact hrefuse ws (by simp) (by simp) ws.id (.of_change hinserted rfl)
        ((hc.changes _ hinserted).2.2 hactive)
  · obtain ⟨g', hg', hthis⟩ := List.any_eq_true.mp hopen
    obtain ⟨hsession, hopen⟩ := Bool.and_eq_true_iff.mp hthis
    replace hsession : g'.sessionId = ws'.id := beq_iff_eq.mp hsession
    rcases hc.open_commit hdone hg' (Segment.isOpen_iff g' |>.mp hopen) with
      ⟨g, hg, ⟨_, hsame⟩, hwas, hends, _⟩ | ⟨hworks, hworkable⟩
    · obtain ⟨row, hrow, hrowId⟩ := hdb.segmentSession g hg
      have hid : ws'.id = row.id := by rw [hrowId, ← hsame, hsession]
      obtain ⟨ws, hws, rfl⟩ := hc.committed_of_id hws' (hid ▸ List.mem_map_of_mem hrow)
      rw [settleSession_userId] at hpolicy
      rw [nonDesktop_congr db (settleSession_deviceId _ _)] at hnonDesktop
      have hwsId : ws.id = g.sessionId := by rw [← hsame, hsession, settleSession_id]
      rcases hc.segments g hg hwas ws hws hwsId hnonDesktop hpolicy with hends' | hfinds
      · exact hends hends'
      · exact hnone hfinds
    · obtain ⟨ws, hws, hid, _, hpermits⟩ := hc.workable_commit hworks hworkable
      have hsame : ws = ws' := hc.sessionKeys_commit.eq hws hws' (hid.trans hsession)
      exact hrefuse ws (by rw [hsame]) (by rw [hsame]) _ hworks hpermits

/-- **A commit leaves the database sound.** -/
theorem Disciplined.commit (hdb : PolicySound db) (hdone : c.todo = []) :
    PolicySound (applyAll c.changes db) where
  sessionKeys := hc.sessionKeys_commit
  segmentKeys := by
    unfold UniqueKey
    rw [PolicyChange.applyAll_segmentIds]
    exact hc.segmentKeys
  segmentSession := by
    intro g' hg'
    rcases PolicyChange.mem_applyAll_segments hg' with ⟨g, hg, rfl⟩ | ⟨g, rest, hg, _, rfl⟩
    · obtain ⟨ws, hws, hid⟩ := hdb.segmentSession g hg
      refine ⟨_, PolicyChange.settleSession_mem hws, ?_⟩
      rw [settleSession_id, settleSegment_sessionId, hid]
    · obtain ⟨ws, hws, hid, _⟩ := hc.workable_commit (.of_change hg rfl) (hc.changes _ hg)
      exact ⟨ws, hws, by rw [hid, settleSegment_sessionId]⟩
  owner := by
    intro ws' hws'
    rw [PolicyChange.applyAll_getDevice]
    rcases PolicyChange.mem_applyAll_sessions hws' with ⟨ws, hws, rfl⟩ | ⟨ws, rest, hinserted, _, rfl⟩
    · rw [settleSession_deviceId, settleSession_userId]
      exact hdb.owner ws hws
    · rw [settleSession_deviceId, settleSession_userId]
      exact (hc.changes _ hinserted).2.1
  unended := by
    intro ws' hws' hstatus
    rcases PolicyChange.mem_applyAll_sessions hws' with ⟨ws, hws, rfl⟩ | ⟨ws, rest, hinserted, hrest, rfl⟩
    · exact (hc.settled hdb hws hstatus).2.1
    · exact (hc.inserted hinserted hrest).1
  openUnended := by
    intro g' hg' hopen ws' hws' hid
    rcases hc.open_commit hdone hg' hopen with ⟨g, hg, ⟨_, hsame⟩, hwas, _, hstops⟩ | ⟨hworks, hworkable⟩
    · obtain ⟨row, hrow, hrowId⟩ := hdb.segmentSession g hg
      have hmem : ws'.id ∈ db.workSessions.map (·.id) := by
        rw [hid, hsame, ← hrowId]
        exact List.mem_map_of_mem hrow
      obtain ⟨ws, hws, rfl⟩ := hc.committed_of_id hws' hmem
      have hwsId : ws.id = g.sessionId := by rw [← hsame, ← hid, settleSession_id]
      have hnot : ∀ x ∈ c.changes, ¬ x.stops ws.id := by
        rw [hwsId]
        exact fun x hx hstop => hstops (.inl ⟨x, hx, hstop⟩)
      rw [(PolicyChange.settleSession_of_not_stops hnot).1]
      exact hdb.openUnended g hg hwas ws hws hwsId
    · obtain ⟨ws, hws, hwsId, hended, _⟩ := hc.workable_commit hworks hworkable
      rw [← hc.sessionKeys_commit.eq hws hws' (hwsId.trans hid.symm)]
      exact hended
  noBypass := hc.noBypass_commit hdb hdone

end

/-! ## The other transactions -/

/-- A session of the device that has not ended is one that an active heartbeat with its locks may work in. -/
theorem cleared_workable {db : Database} {t : PolicyTransaction} (hdb : PolicySound db) {h : PendingSync}
    (hcleared : Cleared db t h) {ws : WorkSession} (hws : ws ∈ db.workSessions)
    (hdevice : ws.deviceId = h.call.device.id) (hactive : h.adm.status = .active) (hended : ws.endedAt = none) :
    Workable db t ws := by
  obtain ⟨device, hget, howner⟩ := hdb.owner ws hws
  rw [hdevice, hcleared.admitted.device] at hget
  cases hget
  refine ⟨hended, ⟨by rw [hdevice]; exact hcleared.device, ?_⟩, fun hnonDesktop => ?_⟩
  · rw [howner]
    exact hcleared.timer
  · rw [howner]
    refine hcleared.policy hactive fun hkind => ?_
    unfold Database.nonDesktop at hnonDesktop
    rw [hdevice, hcleared.admitted.device, Option.any_some, hkind] at hnonDesktop
    exact absurd hnonDesktop (by decide)

section

variable {db : Database} {c t : PolicyTransaction} (hc : Disciplined db c) (hapart : c.Apart t)

theorem AdmittedSync.seen {h : PendingSync} (hadm : AdmittedSync db t h) (cs : List PolicyChange) :
    AdmittedSync (applyAll cs db) t h where
  sync := hadm.sync
  device := by
    rw [PolicyChange.applyAll_getDevice]
    exact hadm.device
  owner := hadm.owner
  active := hadm.active

include hc hapart

theorem Permits.seen {ws : WorkSession} (h : Permits db t ws) : Permits (applyAll c.changes db) t ws := by
  intro hnonDesktop
  rw [PolicyChange.applyAll_nonDesktop] at hnonDesktop
  obtain ⟨u, huser, hglobal, hmember, hall⟩ := h hnonDesktop
  refine ⟨u, huser, hglobal, hmember, ?_⟩
  rw [allowedFor_applyAll_of_not_rules (hc.not_rules_of_member hapart hglobal hmember)]
  exact hall

theorem PolicyChecked.seen {h : PendingSync} (hchecked : PolicyChecked db t h) :
    PolicyChecked (applyAll c.changes db) t h := by
  intro hactive hkind
  obtain ⟨u, huser, hglobal, hmember, hall⟩ := hchecked hactive hkind
  refine ⟨u, huser, hglobal, hmember, ?_⟩
  rw [allowedFor_applyAll_of_not_rules (hc.not_rules_of_member hapart hglobal hmember)]
  exact hall

theorem Cleared.seen {h : PendingSync} (hcleared : Cleared db t h) : Cleared (applyAll c.changes db) t h where
  admitted := hcleared.admitted.seen _
  policy := hcleared.policy.seen hc hapart
  timer := hcleared.timer
  device := hcleared.device

theorem Permits.settled {ws : WorkSession} (h : Permits db t ws) (cs : List PolicyChange) :
    Permits (applyAll c.changes db) t (settleSession cs ws) := by
  have hseen := h.seen hc hapart
  unfold Permits at hseen ⊢
  rw [nonDesktop_congr _ (settleSession_deviceId _ _), settleSession_userId]
  exact hseen

theorem Restricted.seen {ws : WorkSession} (h : Restricted db t ws) :
    Restricted (applyAll c.changes db) t (settleSession c.changes ws) where
  nonDesktop := by
    rw [PolicyChange.applyAll_nonDesktop, nonDesktop_congr db (settleSession_deviceId _ _)]
    exact h.nonDesktop
  enforces := by
    rw [settleSession_userId]
    exact h.enforces
  policy := by
    have hkept := PolicyChange.applyAll_policyOf_of_not_rules (hc.not_rules_of_enforces hapart h.enforces) db
    rw [settleSession_userId, allowedFor_applyAll_congr _ hkept]
    exact h.policy

/-- A committed session in which the other transaction may open work stays one. -/
theorem Workable.seen (hdb : PolicySound db) {ws : WorkSession} (hws : ws ∈ db.workSessions)
    (h : Workable db t ws) : Workable (applyAll c.changes db) t (settleSession c.changes ws) where
  unended := by
    have hnot : ∀ x ∈ c.changes, ¬ x.stops ws.id := fun x hx hstop =>
      h.not_stoppable hdb hws hapart (hc.stoppable (.inl ⟨x, hx, hstop⟩))
    rw [(PolicyChange.settleSession_of_not_stops hnot).1]
    exact h.unended
  locks :=
    { device := by rw [settleSession_deviceId]; exact h.locks.device
      timer := by rw [settleSession_userId]; exact h.locks.timer }
  permits := h.permits.settled hc hapart _

theorem HasWorkable.seen (hdb : PolicySound db) {id : Nat} (h : HasWorkable db t id) :
    HasWorkable (applyAll c.changes db) t id := by
  obtain ⟨ws, hmem, hid, hworkable⟩ := h
  rcases hmem with hcommitted | hinserted
  · refine ⟨_, .inl (PolicyChange.settleSession_mem hcommitted), ?_, hworkable.seen hc hapart hdb hcommitted⟩
    rw [settleSession_id, hid]
  · exact ⟨ws, .inr hinserted, hid, hworkable.unended, hworkable.locks, hworkable.permits.seen hc hapart⟩

theorem Stoppable.seen {id : Nat} (h : Stoppable db t id) : Stoppable (applyAll c.changes db) t id := by
  obtain ⟨ws, hws, hid, hcase⟩ := h
  refine ⟨_, PolicyChange.settleSession_mem hws, by rw [settleSession_id, hid], ?_⟩
  rcases hcase with ⟨hsync, hholds⟩ | hrestricted
  · refine .inl ⟨hsync, ?_⟩
    unfold HoldsSession
    rw [settleSession_deviceId, settleSession_userId]
    exact hholds
  · exact .inr (hrestricted.seen hc hapart)

theorem Endable.seen {id : Nat} (h : Endable db t id) : Endable (applyAll c.changes db) t id := by
  rcases h with hsync | ⟨g, hg, hid, ws, hws, hsession, hrestricted⟩
  · exact .inl hsync
  · refine .inr ⟨_, PolicyChange.settleSegment_mem hg, by rw [settleSegment_id, hid], _,
      PolicyChange.settleSession_mem hws, ?_, hrestricted.seen hc hapart⟩
    rw [settleSession_id, settleSegment_sessionId, hsession]

theorem ChangeOk.seen (hdb : PolicySound db) (ht : Disciplined db t) {x : PolicyChange} (hx : x ∈ t.changes) :
    ChangeOk (applyAll c.changes db) t x := by
  have hok := ht.changes x hx
  cases x with
  | segmentEnded id endedAt => exact Endable.seen hc hapart hok
  | segmentStarted g => exact HasWorkable.seen hc hapart hdb hok
  | sessionStopped id endedAt => exact Stoppable.seen hc hapart hok
  | sessionContinued id status note now =>
    obtain ⟨ws, hws, hid, hended, hpermits⟩ := hok
    refine ⟨_, PolicyChange.settleSession_mem hws, by rw [settleSession_id, hid], ?_,
      fun hactive => (hpermits hactive).settled hc hapart _⟩
    -- the row is locked, so it has not been stopped
    have hnot : ∀ y ∈ c.changes, ¬ y.stops ws.id := by
      intro y hy hstop
      have hmine : (.session id, .exclusive) ∈ t.locks := ht.locked _ hx _ rfl
      cases y with
      | sessionStopped row endedAt =>
        obtain rfl : row = id := Eq.trans hstop hid
        exact hapart.exclusive (hc.locked _ hy _ rfl) hmine
      | _ => exact False.elim hstop
    rw [(PolicyChange.settleSession_of_not_stops hnot).1]
    exact hended
  | sessionInserted ws =>
    obtain ⟨hended, howner, hpermits⟩ := hok
    refine ⟨hended, ?_, fun hactive => (hpermits hactive).seen hc hapart⟩
    rw [PolicyChange.applyAll_getDevice]
    exact howner
  | breakEnded id endedAt => exact trivial
  | receipt event => exact trivial
  | allowedApps value => exact hok
  | memberSettings u row => exact hok

theorem ActionOk.seen (hdb : PolicySound db) {a : PolicyAction} (h : ActionOk db t a) :
    ActionOk (applyAll c.changes db) t a := by
  cases a with
  | lockGlobalShared h' => exact AdmittedSync.seen h _
  | lockMemberShared h' => exact ⟨AdmittedSync.seen h.1 _, h.2⟩
  | checkPolicy h' => exact ⟨AdmittedSync.seen h.1 _, h.2⟩
  | lockTimer h' => exact ⟨AdmittedSync.seen h.1 _, PolicyChecked.seen hc hapart h.2⟩
  | lockDevice h' => exact ⟨AdmittedSync.seen h.1 _, PolicyChecked.seen hc hapart h.2.1, h.2.2⟩
  | readDuplicate h' => exact Cleared.seen hc hapart h
  | readPrevious h' => exact Cleared.seen hc hapart h
  | readSession h' previous => exact Cleared.seen hc hapart h
  | openSession h' observed => exact Cleared.seen hc hapart h
  | readOther h' previous session =>
    obtain ⟨hcleared, hsession⟩ := h
    refine ⟨hcleared.seen hc hapart, fun s hs => ?_⟩
    obtain ⟨ws, hws, hid, hdevice, hended⟩ := hsession s hs
    refine ⟨_, PolicyChange.settleSession_mem hws, by rw [settleSession_id, hid],
      by rw [settleSession_deviceId, hdevice], fun hactive => ?_⟩
    exact ((cleared_workable hdb hcleared hws hdevice hactive (hended hactive)).seen hc hapart hdb hws).unended
  | startSegment id startedAt => exact HasWorkable.seen hc hapart hdb h
  | continueSession id status note now =>
    obtain ⟨hstatus, ws, hws, hid, hworkable⟩ := h
    exact ⟨hstatus, _, PolicyChange.settleSession_mem hws, by rw [settleSession_id, hid],
      fun hactive => (hworkable hactive).seen hc hapart hdb hws⟩
  | readOrganization m =>
    obtain ⟨hholds, hpolicy⟩ := h
    have hkept := PolicyChange.applyAll_policyOf_of_not_rules (hc.not_rules_of_enforces hapart hholds.enforces) db
    refine ⟨hholds, ?_⟩
    rw [PolicyChange.applyAll_policyOf_congr _ hkept]
    exact hpolicy
  | endSegments ids endedAt greatest => exact fun id hid => Endable.seen hc hapart (h id hid)
  | stopSessions ids endedAt => exact fun id hid => Stoppable.seen hc hapart (h id hid)
  | _ => exact h

/-- A key that one transaction takes is not taken by another. -/
theorem insertedIds_disjoint (ht : Disciplined db t) :
    List.Disjoint (insertedIds c.changes) (insertedIds t.changes) := by
  intro id hmine hother
  obtain ⟨ws, hws, rfl⟩ := PolicyChange.mem_insertedIds.mp hmine
  obtain ⟨ws', hws', hid⟩ := PolicyChange.mem_insertedIds.mp hother
  have hlock : (.session ws'.id, .exclusive) ∈ t.locks := ht.locked _ hws' _ rfl
  rw [hid] at hlock
  exact hapart.exclusive (hc.locked _ hws _ rfl) hlock

theorem startedIds_disjoint (ht : Disciplined db t) :
    List.Disjoint (startedIds c.changes) (startedIds t.changes) := by
  intro id hmine hother
  obtain ⟨g, hg, rfl⟩ := PolicyChange.mem_startedIds.mp hmine
  obtain ⟨g', hg', hid⟩ := PolicyChange.mem_startedIds.mp hother
  have hlock : (.segment g'.id, .exclusive) ∈ t.locks := ht.locked _ hg' _ rfl
  rw [hid] at hlock
  exact hapart.exclusive (hc.locked _ hg _ rfl) hlock

omit hc hapart in
theorem nodup_append_append {xs ys zs : List Nat} (h : (xs ++ zs).Nodup) (h' : (xs ++ ys).Nodup)
    (hdisjoint : List.Disjoint ys zs) : ((xs ++ ys) ++ zs).Nodup := by
  refine List.nodup_append'.mpr ⟨h', (List.nodup_append'.mp h).2.1, fun x hx hz => ?_⟩
  rcases List.mem_append.mp hx with hold | hnew
  · exact List.disjoint_of_nodup_append h hold hz
  · exact hdisjoint hnew hz

omit hc hapart in
theorem EndsSegment.congr {g g' : Segment} (h : EndsSegment t g) (hsame : g'.id = g.id ∧ g'.sessionId = g.sessionId) :
    EndsSegment t g' := by
  rcases h with ⟨x, hx, hends⟩ | ⟨a, ha, hends⟩
  · refine .inl ⟨x, hx, ?_⟩
    cases x with
    | segmentEnded id endedAt => exact Eq.trans hends hsame.1.symm
    | _ => exact False.elim hends
  · refine .inr ⟨a, ha, ?_⟩
    cases a with
    | closeSegments id endedAt => exact Eq.trans hends hsame.2.symm
    | endSegments ids endedAt greatest =>
      show g'.id ∈ ids
      rw [hsame.1]
      exact hends
    | _ => exact False.elim hends

/-- What is open in a session that the other transaction stops was open before. -/
theorem Disciplined.open_of_stoppable (hdb : PolicySound db) (hdone : c.todo = []) {g' : Segment}
    (hg' : g' ∈ (applyAll c.changes db).segments) (hopen : g'.endedAt = none)
    (hstops : Stoppable db t g'.sessionId) :
    ∃ g ∈ db.segments, (g'.id = g.id ∧ g'.sessionId = g.sessionId) ∧ g.endedAt = none := by
  rcases hc.open_commit hdone hg' hopen with ⟨g, hg, hsame, hwas, _⟩ | ⟨_, ws, hmem, hid, hworkable⟩
  · exact ⟨g, hg, hsame, hwas⟩
  · rcases hmem with hcommitted | hinserted
    · exact absurd (hid ▸ hstops) (hworkable.not_stoppable hdb hcommitted hapart.symm)
    · obtain ⟨row, hrow, hrowId, _⟩ := hstops
      exact absurd (hid ▸ hrowId ▸ List.mem_map_of_mem hrow) (hc.inserted_fresh hinserted)

omit hc hapart in
/-- A user whose policy the transaction tightens: it holds the policy's locks. -/
theorem Disciplined.enforces_of_tightens (ht : Disciplined db t) {db' : Database} {userId : Option Nat}
    (hbefore : db'.allowedFor userId ≠ .desktopOnly)
    (hafter : (applyAll t.changes db').allowedFor userId = .desktopOnly) : Enforces t userId := by
  by_contra hnot
  refine hbefore ?_
  rw [← hafter]
  exact (allowedFor_applyAll_of_not_rules (fun x hx hrules => hnot (Enforces.of_rules ht hx hrules).1) _).symm

/-- A session that tracks after the commit, and may not by the other transaction's policy: that transaction holds
the policy's locks, and it had tightened the policy before the commit. -/
theorem Disciplined.tightened_before (hdb : PolicySound db) (hdone : c.todo = []) (ht : Disciplined db t)
    {ws' : WorkSession} (hws' : ws' ∈ (applyAll c.changes db).workSessions)
    (hnonDesktop : (applyAll c.changes db).nonDesktop ws' = true)
    (htracks : (applyAll c.changes db).tracks ws' = true)
    (hpolicy : (applyAll t.changes (applyAll c.changes db)).allowedFor ws'.userId = .desktopOnly) :
    Enforces t ws'.userId ∧ (applyAll t.changes db).allowedFor ws'.userId = .desktopOnly := by
  have hbefore := (hc.commit hdb hdone).noBypass ws' hws' hnonDesktop htracks
  have henforces := ht.enforces_of_tightens hbefore hpolicy
  have hkept := PolicyChange.applyAll_policyOf_of_not_rules (hc.not_rules_of_enforces hapart henforces) db
  exact ⟨henforces, (allowedFor_applyAll_congr _ hkept).symm.trans hpolicy⟩

/-- **What holds of a running transaction holds after another's commit.** -/
theorem Disciplined.seen (hdb : PolicySound db) (hdone : c.todo = []) (ht : Disciplined db t) :
    Disciplined (applyAll c.changes db) t where
  locked := ht.locked
  changes _ hx := ChangeOk.seen hc hapart hdb ht hx
  todo a ha := ActionOk.seen hc hapart hdb (ht.todo a ha)
  entering := ht.entering
  findsFirst := ht.findsFirst
  apart := ht.apart
  idle := ht.idle
  sessionKeys := by
    rw [PolicyChange.applyAll_sessionIds]
    exact nodup_append_append ht.sessionKeys hc.sessionKeys (insertedIds_disjoint hc hapart ht)
  segmentKeys := by
    rw [PolicyChange.applyAll_segmentIds]
    exact nodup_append_append ht.segmentKeys hc.segmentKeys (startedIds_disjoint hc hapart ht)
  ending := by
    intro g' hg' hopen hstops
    obtain ⟨g, hg, hsame, hwas⟩ := hc.open_of_stoppable hapart hdb hdone hg' hopen (ht.stoppable hstops)
    exact (ht.ending g hg hwas (hsame.2 ▸ hstops)).congr hsame
  segments := by
    intro g' hg' hopen ws' hws' hid hnonDesktop hpolicy
    have htracks : (applyAll c.changes db).tracks ws' = true := by
      refine Bool.or_eq_true_iff.mpr (.inr (List.any_eq_true.mpr ⟨g', hg', ?_⟩))
      rw [hid, beq_self_eq_true, Bool.true_and, Segment.isOpen_iff]
      exact hopen
    obtain ⟨henforces, hbefore⟩ := hc.tightened_before hapart hdb hdone ht hws' hnonDesktop htracks hpolicy
    rw [PolicyChange.applyAll_nonDesktop] at hnonDesktop
    rcases hc.open_commit hdone hg' hopen with ⟨g, hg, hsame, hwas, _⟩ | ⟨hworks, hworkable⟩
    · obtain ⟨row, hrow, hrowId⟩ := hdb.segmentSession g hg
      have hmem : ws'.id ∈ db.workSessions.map (·.id) := by
        rw [hid, hsame.2, ← hrowId]
        exact List.mem_map_of_mem hrow
      obtain ⟨ws, hws, rfl⟩ := hc.committed_of_id hws' hmem
      rw [settleSession_userId] at hbefore
      rw [nonDesktop_congr db (settleSession_deviceId _ _)] at hnonDesktop
      have hwsId : ws.id = g.sessionId := by rw [← hsame.2, ← hid, settleSession_id]
      exact (ht.segments g hg hwas ws hws hwsId hnonDesktop hbefore).imp_left (·.congr hsame)
    · obtain ⟨ws, hws, hwsId, _, hpermits⟩ := hc.workable_commit hworks hworkable
      obtain rfl := hc.sessionKeys_commit.eq hws hws' (hwsId.trans hid.symm)
      exact absurd henforces (hpermits.not_enforces hnonDesktop hapart.symm)
  sessions := by
    intro ws' hws' hactive hnonDesktop hpolicy
    have htracks : (applyAll c.changes db).tracks ws' = true :=
      Bool.or_eq_true_iff.mpr (.inl (beq_iff_eq.mpr hactive))
    obtain ⟨henforces, hbefore⟩ := hc.tightened_before hapart hdb hdone ht hws' hnonDesktop htracks hpolicy
    rw [PolicyChange.applyAll_nonDesktop] at hnonDesktop
    have hrefuse : ¬ Permits db c ws' := fun hpermits =>
      hpermits.not_enforces hnonDesktop hapart.symm henforces
    rcases PolicyChange.mem_applyAll_sessions hws' with ⟨ws, hws, rfl⟩ | ⟨ws, rest, hinserted, hrest, rfl⟩
    · unfold Permits at hrefuse
      rw [settleSession_userId] at hbefore hrefuse
      rw [nonDesktop_congr db (settleSession_deviceId _ _)] at hnonDesktop hrefuse
      rw [settleSession_id]
      rcases (hc.settled hdb hws (by rw [hactive]; nofun)).2.2 hactive with hwas | ⟨_, hpermits⟩
      · exact ht.sessions ws hws hwas hnonDesktop hbefore
      · exact absurd hpermits hrefuse
    · unfold Permits at hrefuse
      rw [nonDesktop_congr db (settleSession_deviceId _ _), settleSession_userId] at hrefuse
      rw [(hc.inserted hinserted hrest).2] at hactive
      exact absurd ((hc.changes _ hinserted).2.2 hactive) hrefuse

end

end Dayfinch
