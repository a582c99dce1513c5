/-
# Dayfinch.Work.DesktopOnly -- the desktop-only policy under every interleaving

Heartbeats of any devices and updates of the policy run interleaved, statement by statement. The locks exclude
every race for an active heartbeat: while it runs, its user's policy stays as it read it. A paused heartbeat
takes no policy lock. It selects its session, and an update that restricts the policy may stop that session and
commit before the heartbeat writes to it. The write then puts the status back to `paused` and leaves `ended_at`
set: the next active heartbeat resumes the session, and no later update sees it, because updates look for
sessions that have not ended.

`reopens` is that write. Every run without one keeps the policy (`desktopOnly_run`), and the updates end nothing
that their policy allows.
-/
import Dayfinch.Work.PolicySteps

namespace Dayfinch

open Library (Transaction Programs Store StoreOp run Guarded)
open PolicyChange (applyAll settleSession settleSegment)

/-! ## Beginnings -/

/-- Before anybody has worked, the database is sound. -/
theorem policySound_withoutWork (db : Database) : PolicySound db.withoutWork where
  sessionKeys := List.nodup_nil
  segmentKeys := List.nodup_nil
  segmentSession _ h := absurd h List.not_mem_nil
  owner _ h := absurd h List.not_mem_nil
  unended _ h := absurd h List.not_mem_nil
  openUnended _ h := absurd h List.not_mem_nil
  noBypass _ h := absurd h List.not_mem_nil

theorem admitActive_owner {now : Int} {db : Database} {call : SyncCall} {owner : Option User}
    {projectId : Option Nat} {workDate : Int}
    (h : admitActive now db call .active owner projectId workDate = .ok ()) : owner.isSome = true := by
  unfold admitActive at h
  rw [if_neg (by simp)] at h
  obtain ⟨_, _, h⟩ := Library.bind_eq_ok.mp h
  obtain ⟨_, _, h⟩ := Library.bind_eq_ok.mp h
  obtain ⟨user, hauthorized, _⟩ := Library.bind_eq_ok.mp h
  cases owner with
  | none => exact absurd hauthorized nofun
  | some owner => rfl

/-- A heartbeat that is admitted knows its owner. -/
theorem Admitted.sync {now : Int} {db : Database} {call : SyncCall} {adm : Admission}
    (h : Admitted now db call adm) (hdevice : db.getDevice call.device.id = some call.device) :
    AdmittedSync db { request := .sync now call, todo := [PendingSync.entry { now, call, adm }] }
      { now, call, adm } where
  sync := rfl
  device := hdevice
  owner := by
    intro owner howner
    rw [h.owner] at howner
    obtain ⟨u, hu, huser⟩ := Option.bind_eq_some_iff.mp howner
    rw [hu, getUserAny_id (getUser_eq_some.mp huser).1]
  active := by
    intro hactive
    have hadmitted := h.active
    rw [hactive] at hadmitted
    exact admitActive_owner hadmitted

theorem Disciplined.begins {db : Database} (hdb : PolicySound db) {request : PolicyRequest}
    {todo : List PolicyAction} (h : request.start db = some todo) : Disciplined db { request, todo } := by
  cases request with
  | organization now value =>
    cases h
    exact .enters hdb rfl rfl trivial rfl
  | member m =>
    cases h
    exact .enters hdb rfl rfl trivial rfl
  | sync now call =>
    simp only [PolicyRequest.start] at h
    split at h
    · rename_i hdevice
      obtain ⟨status, _, h⟩ := Option.bind_eq_some_iff.mp h
      obtain ⟨adm, hadmit, rfl⟩ := Option.map_eq_some_iff.mp h
      have hadmitted := (admitSync_eq_ok.mp (Library.toOption_eq_some.mp hadmit)).2
      refine .enters hdb rfl rfl ?_ ?_
      · unfold PendingSync.entry
        split <;> exact trivial
      · have hsync := hadmitted.sync hdevice
        generalize hentry : PendingSync.entry { now, call, adm } = entry at hsync ⊢
        unfold PendingSync.entry at hentry
        split at hentry
        · cases hentry
          exact hsync
        · rename_i hnot
          cases hentry
          exact ⟨hsync, fun hactive hkind => absurd ⟨hactive, hsync.active hactive, hkind⟩ hnot⟩
    · exact absurd h nofun

/-- Heartbeats and policy updates do not break what holds of one another. -/
theorem policyPrograms_obligations (tie : AgentStateEvent → Nat) :
    (policyPrograms tie).Obligations PolicySound Disciplined fun db todo => reopens db todo = false where
  begins hdb h := .begins hdb h
  acts hdb ht hguard htodo hact := ht.acts hdb hguard htodo hact
  commits hdb ht hdone := ht.commit hdb hdone
  keeps hdb hc hdone ht hapart := hc.seen hapart hdb hdone ht

/-! ## What an update ends -/

theorem settleSession_of_untouched {cs : List PolicyChange} {ws : WorkSession}
    (h : ∀ x ∈ cs, ¬ x.stops ws.id ∧ ¬ x.works ws.id) : settleSession cs ws = ws := by
  induction cs with
  | nil => rfl
  | cons c cs ih =>
    obtain ⟨hstops, hworks⟩ := h c List.mem_cons_self
    have hfirst : c.onSession ws = ws := by
      cases c with
      | sessionStopped id endedAt => exact if_neg fun hid => hstops hid.symm
      | sessionContinued id status note now => exact if_neg fun hid => hworks hid.symm
      | _ => rfl
    unfold settleSession
    rw [List.foldl_cons, hfirst]
    exact ih fun x hx => h x (List.mem_cons_of_mem c hx)

theorem Disciplined.endable {db : Database} {t : PolicyTransaction} (ht : Disciplined db t) {g : Segment}
    (h : ∃ x ∈ t.changes, x.ends g) : Endable db t g.id := by
  obtain ⟨x, hx, hends⟩ := h
  have hok := ht.changes x hx
  cases x with
  | segmentEnded id endedAt =>
    cases hends
    exact hok
  | _ => exact False.elim hends

/-- An update changes no session and no segment that its policy allows. -/
theorem Disciplined.spares {db : Database} {t : PolicyTransaction} (hdb : PolicySound db) (ht : Disciplined db t)
    (hupdate : t.request.isSync = false) : SparesAllowed db (applyAll t.changes db) := by
  intro ws hws hallowed
  have hnotRestricted : ¬ Restricted db t ws := by
    intro hrestricted
    rcases hallowed with hdesktop | hall
    · rw [hrestricted.nonDesktop] at hdesktop
      exact Bool.noConfusion hdesktop
    · rw [hrestricted.policy] at hall
      exact absurd hall nofun
  refine ⟨?_, fun g hg hsession => ?_⟩
  · have hsame : settleSession t.changes ws = ws := by
      refine settleSession_of_untouched fun x hx => ⟨fun hstops => ?_, fun hworks => ?_⟩
      · obtain ⟨row, hrow, hid, ⟨hsync, _⟩ | hrestricted⟩ := ht.stoppable (.inl ⟨x, hx, hstops⟩)
        · exact Bool.noConfusion (hsync.symm.trans hupdate)
        · exact hnotRestricted (hdb.sessionKeys.eq hrow hws hid ▸ hrestricted)
      · exact ht.idle hupdate ws.id (.of_change hx hworks)
    exact hsame ▸ PolicyChange.settleSession_mem hws
  · have hsame : settleSegment t.changes g = g := by
      refine PolicyChange.settleSegment_of_not_ends fun x hx hends => ?_
      rcases ht.endable ⟨x, hx, hends⟩ with hsync | ⟨row, hrow, hid, ws', hws', hwsId, hrestricted⟩
      · exact Bool.noConfusion (hsync.symm.trans hupdate)
      · obtain rfl := hdb.segmentKeys.eq hrow hg hid
        exact hnotRestricted (hdb.sessionKeys.eq hws' hws (hwsId.trans hsession) ▸ hrestricted)
    exact hsame ▸ PolicyChange.settleSegment_mem hg

/-! ## Runs -/

/-- When no call is in progress nobody tracks past the policy, and no step of an update touches a session, or a
segment of it, that is a desktop's or its user may go on with. -/
structure PolicyKept (tie : AgentStateEvent → Nat) (s : PolicyStore) : Prop where
  noBypass : s.running = [] → NoBypass s.db
  spares : ∀ i uuid, (∀ t, s.running[i]? = some t → t.request.isSync = false) →
    SparesAllowed s.db ((policyPrograms tie).step s (.advance i uuid)).db

/-- A step of a call leaves the committed database alone, or commits the call. -/
theorem advance_db (tie : AgentStateEvent → Nat) (s : PolicyStore) (i uuid : Nat) :
    ((policyPrograms tie).step s (.advance i uuid)).db = s.db ∨
      ∃ t, s.running[i]? = some t ∧
        ((policyPrograms tie).step s (.advance i uuid)).db = applyAll t.changes s.db := by
  simp only [Programs.step, Programs.advance]
  cases ht : s.running[i]? with
  | none => exact .inl rfl
  | some t =>
    dsimp only
    cases t.todo with
    | nil => exact .inr ⟨t, rfl, rfl⟩
    | cons a rest =>
      dsimp only
      split
      · exact .inl rfl
      · split <;> exact .inl rfl

/-- **The policy is kept in every run in which no heartbeat writes a status to a session that has ended since it
was selected.** The first part holds with calls in progress as well. -/
theorem desktopOnly_run (tie : AgentStateEvent → Nat) {db : Database} (hdb : PolicySound db)
    {ops : List PolicyOp}
    (h : Guarded (policyPrograms tie).step
      ((policyPrograms tie).guards fun db todo => reopens db todo = false) { db } ops) :
    PolicyKept tie (run (policyPrograms tie).step { db } ops) := by
  have hsafe := Programs.interferenceFree (policyPrograms_obligations tie) hdb h
  refine ⟨fun _ => hsafe.committed.noBypass, fun i uuid hupdate => ?_⟩
  rcases advance_db tie (run (policyPrograms tie).step { db } ops) i uuid with hsame | ⟨t, ht, hcommit⟩
  · rw [hsame]
    exact fun ws hws _ => ⟨hws, fun g hg _ => hg⟩
  · rw [hcommit]
    exact (hsafe.own t (List.mem_of_getElem? ht)).spares hsafe.committed (hupdate t ht)

/-! ### Two runs in the office -/

/-- The call at `i` executes its next statements; what is inserted gets the identifier `uuid`. -/
def executes (i n uuid : Nat) : List PolicyOp := List.replicate n (.advance i uuid)

/-- The phone presses Start, and the organisation goes over to desktops while it pauses. -/
def restrictWhilePausing : List PolicyOp :=
  .begin (.sync (seconds 100) (pressed phone 1 .active (seconds 100))) :: executes 0 10 10 ++ executes 0 3 11 ++
  .begin (.sync (seconds 130) (pressed phone 2 .paused (seconds 130))) :: executes 0 6 0 ++
  .begin (.organization (seconds 131) .desktopOnly) :: executes 1 9 0

theorem desktopOnly_run_restricted :
    PolicyKept (fun _ => 0) (run (policyPrograms fun _ => 0).step { db := office } restrictWhilePausing) :=
  desktopOnly_run (fun _ => 0) (policySound_withoutWork office) (by decide +kernel)

instance (db : Database) : Decidable (NoBypass db) :=
  inferInstanceAs (Decidable (∀ ws ∈ db.workSessions, db.nonDesktop ws → db.tracks ws →
    db.allowedFor ws.userId ≠ .desktopOnly))

/-- The paused heartbeat goes on; then all apps are allowed, the phone presses Start again, and the organisation
goes back to desktops. The phone is still tracking. -/
theorem desktopOnly_bypassed : ¬ ∀ ops : List PolicyOp,
    PolicyKept (fun _ => 0) (run (policyPrograms fun _ => 0).step { db := office } ops) := by
  intro h
  have hkept := (h (restrictWhilePausing ++ executes 0 5 0 ++
    .begin (.organization (seconds 140) .all) :: executes 0 3 0 ++
    .begin (.sync (seconds 150) (pressed phone 3 .active (seconds 150))) :: executes 0 13 12 ++
    .begin (.organization (seconds 160) .desktopOnly) :: executes 0 9 0)).noBypass (by decide +kernel)
  exact absurd hkept (by decide +kernel)

end Dayfinch
