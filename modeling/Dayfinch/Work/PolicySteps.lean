/-
# Dayfinch.Work.PolicySteps -- every statement keeps what holds of its transaction

A transaction first takes its locks and reads, one statement after the other; the first change of an update is
that of its policy. Then the list of statements is known, and each does its part: what it stops, it ends; what
it finds forbidden, it will stop; and what it works in, it does not stop.
-/
import Dayfinch.Work.PolicyCommit
import Dayfinch.Work.Replay

namespace Dayfinch

open Library (UniqueKey Transaction Effect Store StoreOp Programs run Guarded guarded_invariant)
open PolicyChange (applyAll settleSession settleSegment insertedIds startedIds)

/-! ## A transaction that goes on -/

section

variable {db : Database} {t t' : PolicyTransaction}

/-- The transaction has more locks, and more changes, that do not touch the policy. -/
structure Grows (t t' : PolicyTransaction) : Prop where
  request : t'.request = t.request
  locks : ∀ l ∈ t.locks, l ∈ t'.locks
  changes : ∃ more, t'.changes = t.changes ++ more ∧ ∀ x ∈ more, ∀ userId, ¬ x.rules userId

theorem Grows.isSync (h : Grows t t') : t'.request.isSync = t.request.isSync :=
  congrArg PolicyRequest.isSync h.request

theorem Grows.policyOf (h : Grows t t') (db : Database) (userId : Option Nat) :
    (applyAll t'.changes db).policyOf userId = (applyAll t.changes db).policyOf userId := by
  obtain ⟨more, hmore, hquiet⟩ := h.changes
  rw [hmore, PolicyChange.applyAll, List.foldl_append]
  exact PolicyChange.applyAll_policyOf_of_not_rules (fun x hx => hquiet x hx userId) _

theorem Grows.allowedFor (h : Grows t t') (db : Database) (userId : Option Nat) :
    (applyAll t'.changes db).allowedFor userId = (applyAll t.changes db).allowedFor userId := by
  rw [Database.allowedFor_eq, Database.allowedFor_eq, h.policyOf]

theorem Grows.enforces (h : Grows t t') {userId : Option Nat} (he : Enforces t userId) : Enforces t' userId := by
  rcases he with hexclusive | ⟨u, hu, hmember, hglobal⟩
  · exact .inl (h.locks _ hexclusive)
  · exact .inr ⟨u, hu, h.locks _ hmember, h.locks _ hglobal⟩

theorem Grows.permits (h : Grows t t') {ws : WorkSession} (hp : Permits db t ws) : Permits db t' ws := by
  intro hnonDesktop
  obtain ⟨u, huser, hglobal, hmember, hall⟩ := hp hnonDesktop
  exact ⟨u, huser, h.locks _ hglobal, h.locks _ hmember, hall⟩

theorem Grows.restricted (h : Grows t t') {ws : WorkSession} (hr : Restricted db t ws) : Restricted db t' ws where
  nonDesktop := hr.nonDesktop
  enforces := h.enforces hr.enforces
  policy := (h.allowedFor db _).trans hr.policy

theorem Grows.workable (h : Grows t t') {ws : WorkSession} (hw : Workable db t ws) : Workable db t' ws where
  unended := hw.unended
  locks := ⟨h.locks _ hw.locks.device, fun u hu => h.locks _ (hw.locks.timer u hu)⟩
  permits := h.permits hw.permits

theorem Grows.hasWorkable (h : Grows t t') {id : Nat} (hw : HasWorkable db t id) : HasWorkable db t' id := by
  obtain ⟨ws, hmem, hid, hworkable⟩ := hw
  obtain ⟨more, hmore, _⟩ := h.changes
  refine ⟨ws, hmem.imp_right fun hinserted => ?_, hid, h.workable hworkable⟩
  rw [hmore]
  exact List.mem_append_left _ hinserted

theorem Grows.stoppable (h : Grows t t') {id : Nat} (hs : Stoppable db t id) : Stoppable db t' id := by
  obtain ⟨ws, hws, hid, hcase⟩ := hs
  refine ⟨ws, hws, hid, ?_⟩
  rcases hcase with ⟨hsync, hdevice | ⟨u, hu, htimer⟩⟩ | hrestricted
  · exact .inl ⟨h.request ▸ hsync, .inl (h.locks _ hdevice)⟩
  · exact .inl ⟨h.request ▸ hsync, .inr ⟨u, hu, h.locks _ htimer⟩⟩
  · exact .inr (h.restricted hrestricted)

theorem Grows.endable (h : Grows t t') {id : Nat} (he : Endable db t id) : Endable db t' id := by
  rcases he with hsync | ⟨g, hg, hid, ws, hws, hsession, hrestricted⟩
  · exact .inl (h.request ▸ hsync)
  · exact .inr ⟨g, hg, hid, ws, hws, hsession, h.restricted hrestricted⟩

theorem Grows.admitted (h : Grows t t') {s : PendingSync} (ha : AdmittedSync db t s) : AdmittedSync db t' s where
  sync := h.request ▸ ha.sync
  device := ha.device
  owner := ha.owner
  active := ha.active

theorem Grows.checked (h : Grows t t') {s : PendingSync} (hp : PolicyChecked db t s) : PolicyChecked db t' s := by
  intro hactive hkind
  obtain ⟨u, huser, hglobal, hmember, hall⟩ := hp hactive hkind
  exact ⟨u, huser, h.locks _ hglobal, h.locks _ hmember, hall⟩

theorem Grows.cleared (h : Grows t t') {s : PendingSync} (hc : Cleared db t s) : Cleared db t' s where
  admitted := h.admitted hc.admitted
  policy := h.checked hc.policy
  timer u hu := h.locks _ (hc.timer u hu)
  device := h.locks _ hc.device

theorem Grows.holdsPolicy (h : Grows t t') {userId : Option Nat} (hh : HoldsPolicy t userId) :
    HoldsPolicy t' userId where
  update := h.isSync.trans hh.update
  enforces := h.enforces hh.enforces
  only := by
    intro u hu x hx v hrules
    obtain ⟨more, hmore, hquiet⟩ := h.changes
    rw [hmore] at hx
    rcases List.mem_append.mp hx with hold | hnew
    · exact hh.only u hu x hold v hrules
    · exact absurd hrules (hquiet x hnew v)

theorem Grows.changeOk (h : Grows t t') {x : PolicyChange} (hx : ChangeOk db t x) : ChangeOk db t' x := by
  cases x with
  | segmentEnded id endedAt => exact h.endable hx
  | segmentStarted g => exact h.hasWorkable hx
  | sessionStopped id endedAt => exact h.stoppable hx
  | sessionContinued id status note now =>
    obtain ⟨ws, hws, hid, hended, hpermits⟩ := hx
    exact ⟨ws, hws, hid, hended, fun hactive => h.permits (hpermits hactive)⟩
  | sessionInserted ws => exact ⟨hx.1, hx.2.1, fun hactive => h.permits (hx.2.2 hactive)⟩
  | breakEnded id endedAt => exact trivial
  | receipt event => exact trivial
  | allowedApps value => exact ⟨h.locks _ hx.1, h.request ▸ hx.2⟩
  | memberSettings u row => exact ⟨⟨h.locks _ hx.1.1, h.locks _ hx.1.2⟩, h.request ▸ hx.2⟩

theorem Grows.actionOk (h : Grows t t') {a : PolicyAction} (ha : ActionOk db t a) : ActionOk db t' a := by
  cases a with
  | lockGlobalShared s => exact h.admitted ha
  | lockMemberShared s => exact ⟨h.admitted ha.1, h.locks _ ha.2⟩
  | checkPolicy s =>
    exact ⟨h.admitted ha.1, h.locks _ ha.2.1, fun owner howner => h.locks _ (ha.2.2 owner howner)⟩
  | lockTimer s => exact ⟨h.admitted ha.1, h.checked ha.2⟩
  | lockDevice s => exact ⟨h.admitted ha.1, h.checked ha.2.1, fun u hu => h.locks _ (ha.2.2 u hu)⟩
  | readDuplicate s => exact h.cleared ha
  | readPrevious s => exact h.cleared ha
  | readSession s previous => exact h.cleared ha
  | openSession s observed => exact h.cleared ha
  | readOther s previous session => exact ⟨h.cleared ha.1, ha.2⟩
  | closeSegments id endedAt => exact h.isSync.trans ha
  | startSegment id startedAt => exact h.hasWorkable ha
  | continueSession id status note now =>
    obtain ⟨hstatus, ws, hws, hid, hworkable⟩ := ha
    exact ⟨hstatus, ws, hws, hid, fun hactive => h.workable (hworkable hactive)⟩
  | lockGlobal now value => exact h.isSync.trans ha
  | lockMembers m => exact h.isSync.trans ha
  | writeOrganization now value => exact h.holdsPolicy ha
  | lockMember m => exact ⟨h.request ▸ ha.1, h.locks _ ha.2⟩
  | checkTarget m => exact ⟨⟨h.locks _ ha.1.1, h.locks _ ha.1.2⟩, h.isSync.trans ha.2⟩
  | writeMember m => exact ⟨⟨h.locks _ ha.1.1, h.locks _ ha.1.2⟩, h.isSync.trans ha.2⟩
  | readOrganization m =>
    exact ⟨h.holdsPolicy ha.1, (congrArg Prod.snd (h.policyOf db _)).trans ha.2⟩
  | closeWebSegments now userId => exact h.holdsPolicy ha
  | closeWebSessions now userId => exact h.holdsPolicy ha
  | endSegments ids endedAt greatest => exact fun id hid => h.endable (ha id hid)
  | stopSessions ids endedAt => exact fun id hid => h.stoppable (ha id hid)
  | recordEvent event => exact trivial
  | closeWebBreaks now userId => exact trivial
  | endBreaks ids endedAt => exact trivial

/-- A statement that leaves the policy alone. -/
theorem Grows.after (t : PolicyTransaction) {e : Effect PolicyLock PolicyAction PolicyChange}
    (rest : List PolicyAction) (h : ∀ x ∈ e.changes, ∀ userId, ¬ x.rules userId) : Grows t (t.after e rest) where
  request := rfl
  locks _ hl := List.mem_append_left _ hl
  changes := ⟨e.changes, rfl, h⟩

/-! ## Before the first change, and with the change of the policy -/

theorem tracks_of_open {g : Segment} {ws : WorkSession} (hg : g ∈ db.segments) (hopen : g.endedAt = none)
    (hid : ws.id = g.sessionId) : db.tracks ws = true := by
  refine Bool.or_eq_true_iff.mpr (.inr (List.any_eq_true.mpr ⟨g, hg, ?_⟩))
  rw [hid, beq_self_eq_true, Bool.true_and, Segment.isOpen_iff]
  exact hopen

theorem tracks_of_active {ws : WorkSession} (hactive : ws.status = .active) : db.tracks ws = true :=
  Bool.or_eq_true_iff.mpr (.inl (beq_iff_eq.mpr hactive))

/-- A transaction that has changed nothing but the policy. -/
theorem Disciplined.fresh (hdb : PolicySound db) (hrules : ∀ x ∈ t.changes, ∃ userId, x.rules userId)
    (hlocked : ∀ x ∈ t.changes, ∀ name, x.lock = some name → (name, .exclusive) ∈ t.locks)
    (hchanges : ∀ x ∈ t.changes, ChangeOk db t x) (htodo : ∀ a ∈ t.todo, ActionOk db t a)
    (hentering : ∀ a ∈ t.todo, a.entering → t.changes = [] ∧ t.todo = [a])
    (hfirst : ∀ a ∈ t.todo.tail, ¬ a.findsSegments)
    (hworks : ∀ id, ∀ a ∈ t.todo, a.works id → t.request.isSync = true ∧ ∀ b ∈ t.todo, ¬ b.stops id)
    (hstops : ∀ id, ∀ a ∈ t.todo, a.stops id → ∃ endedAt, .closeSegments id endedAt ∈ t.todo)
    (hfinds : ∀ userId, (applyAll t.changes db).allowedFor userId = .desktopOnly →
      db.allowedFor userId = .desktopOnly ∨
        (∃ a ∈ t.todo, a.findsSegments) ∧ ∃ a ∈ t.todo, a.findsSessions) : Disciplined db t := by
  have hquiet : ∀ x ∈ t.changes, (∀ id, ¬ x.works id) ∧ (∀ id, ¬ x.stops id) ∧ x.newSessions = [] ∧
      x.newSegments = [] := by
    intro x hx
    obtain ⟨userId, hrule⟩ := hrules x hx
    cases x with
    | allowedApps value => exact ⟨fun _ => id, fun _ => id, rfl, rfl⟩
    | memberSettings u row => exact ⟨fun _ => id, fun _ => id, rfl, rfl⟩
    | _ => exact False.elim hrule
  have hkeys : insertedIds t.changes = [] ∧ startedIds t.changes = [] := by
    constructor
    · exact List.map_eq_nil_iff.mpr (List.flatMap_eq_nil_iff.mpr fun x hx => (hquiet x hx).2.2.1)
    · exact List.map_eq_nil_iff.mpr (List.flatMap_eq_nil_iff.mpr fun x hx => (hquiet x hx).2.2.2)
  have hworks' : ∀ id, WorksIn t id → ∃ a ∈ t.todo, a.works id := by
    rintro id (⟨x, hx, hw⟩ | h)
    · exact absurd hw ((hquiet x hx).1 id)
    · exact h
  have hstops' : ∀ id, StopsSession t id → ∃ a ∈ t.todo, a.stops id := by
    rintro id (⟨x, hx, hs⟩ | h)
    · exact absurd hs ((hquiet x hx).2.1 id)
    · exact h
  refine ⟨hlocked, hchanges, htodo, hentering, hfirst, ?_, ?_, ?_, ?_, ?_, ?_, ?_⟩
  · intro id hwork hstop
    obtain ⟨a, ha, hw⟩ := hworks' id hwork
    obtain ⟨b, hb, hs⟩ := hstops' id hstop
    exact (hworks id a ha hw).2 b hb hs
  · intro hupdate id hwork
    obtain ⟨a, ha, hw⟩ := hworks' id hwork
    rw [(hworks id a ha hw).1] at hupdate
    exact Bool.noConfusion hupdate
  · rw [hkeys.1, List.append_nil]
    exact hdb.sessionKeys
  · rw [hkeys.2, List.append_nil]
    exact hdb.segmentKeys
  · intro g _ _ hstop
    obtain ⟨a, ha, hs⟩ := hstops' _ hstop
    obtain ⟨endedAt, hclose⟩ := hstops _ a ha hs
    exact .inr ⟨_, hclose, rfl⟩
  · intro g hg hopen ws hws hid hnonDesktop hpolicy
    rcases hfinds _ hpolicy with hbefore | hfinds
    · exact absurd hbefore (hdb.noBypass ws hws hnonDesktop (tracks_of_open hg hopen hid))
    · exact .inr hfinds.1
  · intro ws hws hactive hnonDesktop hpolicy
    rcases hfinds _ hpolicy with hbefore | hfinds
    · exact absurd hbefore (hdb.noBypass ws hws hnonDesktop (tracks_of_active hactive))
    · exact .inr hfinds.2

/-- A transaction with one thing to do, before its first change. -/
theorem Disciplined.enters (hdb : PolicySound db) (hchanges : t.changes = []) {a : PolicyAction}
    (htodo : t.todo = [a]) (hentering : a.entering) (hok : ActionOk db t a) : Disciplined db t := by
  have hnot : ∀ id, ¬ a.works id ∧ ¬ a.stops id := by
    intro id
    cases a <;> first | exact ⟨fun h => h, fun h => h⟩ | exact False.elim hentering
  have honly : ∀ b ∈ t.todo, b = a := by
    rw [htodo]
    exact fun b hb => List.mem_singleton.mp hb
  refine .fresh hdb (by simp [hchanges]) (by simp [hchanges]) (by simp [hchanges]) (fun b hb => honly b hb ▸ hok)
    (fun b hb _ => ⟨hchanges, honly b hb ▸ htodo⟩) (by simp [htodo]) (fun id b hb hw => ?_)
    (fun id b hb hs => ?_) fun userId h => ?_
  · rw [honly b hb] at hw
    exact absurd hw (hnot id).1
  · rw [honly b hb] at hs
    exact absurd hs (hnot id).2
  · rw [hchanges] at h
    exact .inl h

/-! ## The statements of a heartbeat -/

/-- The statements are justified; they work in sessions of `W` and stop sessions of `S`, and where they stop one
they close its segments. -/
structure Plan (db : Database) (t : PolicyTransaction) (W S : Nat → Prop) (actions : List PolicyAction) : Prop where
  ok : ∀ a ∈ actions, ActionOk db t a
  started : ∀ a ∈ actions, ¬ a.entering
  works : ∀ a ∈ actions, ∀ id, a.works id → W id
  stops : ∀ a ∈ actions, ∀ id, a.stops id → S id
  closes : ∀ a ∈ actions, ∀ id, a.stops id → ∃ endedAt, .closeSegments id endedAt ∈ actions

variable {W S W' S' : Nat → Prop} {actions actions' : List PolicyAction}

theorem Plan.append (h : Plan db t W S actions) (h' : Plan db t W' S' actions') :
    Plan db t (fun id => W id ∨ W' id) (fun id => S id ∨ S' id) (actions ++ actions') where
  ok a ha := (List.mem_append.mp ha).elim (h.ok a) (h'.ok a)
  started a ha := (List.mem_append.mp ha).elim (h.started a) (h'.started a)
  works a ha id hw := (List.mem_append.mp ha).imp (h.works a · id hw) (h'.works a · id hw)
  stops a ha id hs := (List.mem_append.mp ha).imp (h.stops a · id hs) (h'.stops a · id hs)
  closes := by
    intro a ha id hs
    rcases List.mem_append.mp ha with hfirst | hsecond
    · obtain ⟨endedAt, hclose⟩ := h.closes a hfirst id hs
      exact ⟨endedAt, List.mem_append_left _ hclose⟩
    · obtain ⟨endedAt, hclose⟩ := h'.closes a hsecond id hs
      exact ⟨endedAt, List.mem_append_right _ hclose⟩

theorem Plan.mono (h : Plan db t W S actions) (hW : ∀ id, W id → W' id) (hS : ∀ id, S id → S' id) :
    Plan db t W' S' actions where
  ok := h.ok
  started := h.started
  works a ha id hw := hW id (h.works a ha id hw)
  stops a ha id hs := hS id (h.stops a ha id hs)
  closes := h.closes

/-- Statements that neither work nor stop. -/
theorem Plan.quiet (hok : ∀ a ∈ actions, ActionOk db t a ∧ ¬ a.entering ∧ (∀ id, ¬ a.works id) ∧
    ∀ id, ¬ a.stops id) : Plan db t (fun _ => False) (fun _ => False) actions where
  ok a ha := (hok a ha).1
  started a ha := (hok a ha).2.1
  works a ha := (hok a ha).2.2.1
  stops a ha := (hok a ha).2.2.2
  closes a ha id hs := absurd hs ((hok a ha).2.2.2 id)

theorem Plan.stop (hsync : t.request.isSync = true) {id : Nat} (hid : Stoppable db t id) (endedAt : Int) :
    Plan db t (fun _ => False) (· = id) (PendingSync.stopStatements id endedAt) where
  ok := by
    refine List.forall_mem_cons.mpr ⟨hsync, List.forall_mem_singleton.mpr fun row hrow => ?_⟩
    rw [List.mem_singleton.mp hrow]
    exact hid
  started := List.forall_mem_cons.mpr ⟨fun h => h, List.forall_mem_singleton.mpr fun h => h⟩
  works := List.forall_mem_cons.mpr ⟨fun _ h => h, List.forall_mem_singleton.mpr fun _ h => h⟩
  stops := List.forall_mem_cons.mpr ⟨fun _ h => False.elim h,
    List.forall_mem_singleton.mpr fun _ h => List.mem_singleton.mp h⟩
  closes := List.forall_mem_cons.mpr ⟨fun _ h => False.elim h, List.forall_mem_singleton.mpr fun row h => by
    rw [List.mem_singleton.mp h]
    exact ⟨endedAt, List.mem_cons_self⟩⟩

theorem Plan.record (h : PendingSync) (observed : Int) (sessionId : Option Nat) :
    Plan db t (fun _ => False) (fun _ => False) (h.recordStatements observed sessionId) := by
  refine .quiet fun a ha => ?_
  unfold PendingSync.recordStatements at ha
  obtain ⟨eventId, _, rfl⟩ := Option.map_eq_some_iff.mp (Option.mem_toList.mp ha)
  exact ⟨trivial, fun h => h, fun _ h => h, fun _ h => h⟩

theorem Plan.start {h : PendingSync} (hcleared : Cleared db t h) (observed : Int) :
    Plan db t (fun _ => False) (fun _ => False) (h.startWork observed) := by
  unfold PendingSync.startWork
  split
  · exact .record h observed none
  · exact .quiet (List.forall_mem_singleton.mpr ⟨hcleared, fun h => h, fun _ h => h, fun _ h => h⟩)

/-- The device's session as it was read. -/
structure ReadSession (db : Database) (h : PendingSync) (s : WorkSession) : Prop where
  row : ∃ ws ∈ db.workSessions, ws.id = s.id ∧ ws.deviceId = h.call.device.id ∧
    (h.adm.status = .active → ws.endedAt = none)

theorem ReadSession.stoppable {h : PendingSync} (hcleared : Cleared db t h) {s : WorkSession}
    (hs : ReadSession db h s) : Stoppable db t s.id := by
  obtain ⟨ws, hws, hid, hdevice, _⟩ := hs.row
  exact ⟨ws, hws, hid, .inl ⟨hcleared.admitted.sync, .inl (hdevice ▸ hcleared.device)⟩⟩

theorem Plan.keep (hdb : PolicySound db) {h : PendingSync} (hcleared : Cleared db t h) {s : WorkSession}
    (hs : ReadSession db h s) (observed : Int) :
    ∃ W S, Plan db t W S (h.keepWork observed s) ∧ (∀ id, W id → ¬ S id) ∧ ∀ id, W id ∨ S id → id = s.id := by
  unfold PendingSync.keepWork
  split
  · refine ⟨_, _, (Plan.stop hcleared.admitted.sync (hs.stoppable hcleared) observed).append (.record h observed none),
      by simp, by simp⟩
  · rename_i hstopped
    obtain ⟨ws, hws, hid, hdevice, hended⟩ := hs.row
    have hworkable (hactive : h.adm.status = .active) : Workable db t ws :=
      cleared_workable hdb hcleared hws hdevice hactive (hended hactive)
    have hmove : Plan db t (· = s.id) (fun _ => False) (h.moveStatements observed s) := by
      unfold PendingSync.moveStatements
      split
      · have hquiet : Plan db t (fun _ => False) (fun _ => False)
            [.closeSegments s.id (observed - seconds h.call.idleSeconds)] := by
          refine .quiet (List.forall_mem_singleton.mpr ?_)
          exact ⟨hcleared.admitted.sync, fun h => h, fun _ h => h, fun _ h => h⟩
        exact hquiet.mono (fun _ h => False.elim h) fun _ h => h
      · split
        · rename_i hresumed
          have hrow : HasWorkable db t s.id := ⟨ws, .inl hws, hid, hworkable hresumed.1⟩
          exact ⟨List.forall_mem_singleton.mpr hrow, List.forall_mem_singleton.mpr fun h => h,
            List.forall_mem_singleton.mpr fun _ h => Eq.symm h, List.forall_mem_singleton.mpr fun _ h => h,
            List.forall_mem_singleton.mpr fun _ h => False.elim h⟩
        · exact ⟨by simp, by simp, by simp, by simp, by simp⟩
    have hcontinue : Plan db t (· = s.id) (fun _ => False)
        [.continueSession s.id h.adm.status (cleanNote h.call.note) h.now] :=
      ⟨List.forall_mem_singleton.mpr ⟨hstopped, ws, hws, hid, hworkable⟩,
        List.forall_mem_singleton.mpr fun h => h, List.forall_mem_singleton.mpr fun _ h => Eq.symm h,
        List.forall_mem_singleton.mpr fun _ h => h, List.forall_mem_singleton.mpr fun _ h => False.elim h⟩
    exact ⟨_, _, hmove.append (hcontinue.append (.record h observed (some s.id))), by simp, by simp⟩

theorem Plan.own (hdb : PolicySound db) {h : PendingSync} (hcleared : Cleared db t h) {session : Option WorkSession}
    (hsession : ∀ s, session = some s → ReadSession db h s) (previous : Option AgentStateEvent) (observed : Int) :
    ∃ W S, Plan db t W S (h.ownStatements previous observed session) ∧ (∀ id, W id → ¬ S id) ∧
      ∀ id, W id ∨ S id → ∃ s, session = some s ∧ id = s.id := by
  unfold PendingSync.ownStatements
  cases session with
  | none => exact ⟨_, _, .start hcleared observed, by simp, by simp⟩
  | some s =>
    have hs := hsession s rfl
    have hstop (endedAt : Int) := Plan.stop hcleared.admitted.sync (hs.stoppable hcleared) endedAt
    dsimp only
    cases h.lapsedAt previous observed with
    | some endedAt => exact ⟨_, _, (hstop endedAt).append (.start hcleared observed), by simp, by simp⟩
    | none =>
      dsimp only
      split
      · exact ⟨_, _, (hstop observed).append (.start hcleared observed), by simp, by simp⟩
      · obtain ⟨W, S, hplan, hdisjoint, hid⟩ := Plan.keep hdb hcleared hs observed
        exact ⟨W, S, hplan, hdisjoint, fun id hWS => ⟨s, rfl, hid id hWS⟩⟩

/-- What the last read leaves to do. -/
theorem Plan.readOther (hdb : PolicySound db) {h : PendingSync} (hcleared : Cleared db t h)
    {session : Option WorkSession} (hsession : ∀ s, session = some s → ReadSession db h s)
    {previous : Option AgentStateEvent} {e : Effect PolicyLock PolicyAction PolicyChange}
    (he : h.readOther db previous session = .ok e) :
    e.changes = [] ∧ ∃ W S, Plan db t W S e.todo ∧ ∀ id, W id → ¬ S id := by
  obtain ⟨W, S, hown, hdisjoint, hids⟩ :=
    Plan.own hdb hcleared hsession previous (clampToPrevious previous h.adm.observed)
  unfold PendingSync.readOther at he
  dsimp only at he
  split at he
  · cases he
    exact ⟨rfl, W, S, hown, hdisjoint⟩
  · cases hother : otherSession db h.call with
    | none =>
      rw [hother] at he
      cases he
      exact ⟨rfl, W, S, hown, hdisjoint⟩
    | some other =>
      rw [hother] at he
      obtain ⟨_, _, he⟩ := Library.bind_eq_ok.mp he
      obtain ⟨_, _, he⟩ := Library.bind_eq_ok.mp he
      cases he
      obtain ⟨hmem, _, hdevice, u, howner, huser⟩ := otherSession_mem hother
      have hstoppable : Stoppable db t other.id :=
        ⟨other, hmem, rfl, .inl ⟨hcleared.admitted.sync, .inr ⟨u, huser, hcleared.timer u howner⟩⟩⟩
      refine ⟨rfl, _, _, (Plan.stop hcleared.admitted.sync hstoppable _).append hown, ?_⟩
      rintro id (hnone | hW) (hid | hS)
      · exact hnone
      · exact hnone
      · -- the session on the other device is not the device's own
        obtain ⟨s, hs, hsame⟩ := hids id (.inl hW)
        obtain ⟨ws, hws, hwsId, hwsDevice, _⟩ := (hsession s hs).row
        have hrow : ws = other := hdb.sessionKeys.eq hws hmem (hwsId.trans (hsame.symm.trans hid))
        exact hdevice (hrow ▸ hwsDevice)
      · exact hdisjoint id hW hS

/-- A transaction that has changed nothing, with the statements of a plan to do. -/
theorem Disciplined.planned (hdb : PolicySound db) (hchanges : t.changes = []) (hplan : Plan db t W S t.todo)
    (hsync : t.request.isSync = true) (hdisjoint : ∀ id, W id → ¬ S id) : Disciplined db t := by
  refine .fresh hdb (by simp [hchanges]) (by simp [hchanges]) (by simp [hchanges]) hplan.ok
    (fun a ha h => absurd h (hplan.started a ha)) (fun a ha hfinds => ?_)
    (fun id a ha hw => ⟨hsync, fun b hb hs => ?_⟩) (fun id a ha hs => hplan.closes a ha id hs) fun userId h => ?_
  · have hupdate : t.request.isSync = false := by
      have hok := hplan.ok a (List.mem_of_mem_tail ha)
      cases a with
      | readOrganization m => exact hok.1.update
      | closeWebSegments now userId => exact hok.update
      | _ => exact False.elim hfinds
    rw [hsync] at hupdate
    exact Bool.noConfusion hupdate
  · exact hdisjoint id (hplan.works a ha id hw) (hplan.stops b hb id hs)
  · rw [hchanges] at h
    exact .inl h

theorem Plan.grows {t' : PolicyTransaction} (hgrows : Grows t t') (h : Plan db t W S actions) :
    Plan db t' W S actions where
  ok a ha := hgrows.actionOk (h.ok a ha)
  started := h.started
  works := h.works
  stops := h.stops
  closes := h.closes

/-- A policy update that has written its policy. -/
theorem Disciplined.updated (hdb : PolicySound db) {x : PolicyChange} (hchanges : t.changes = [x])
    (hrules : ∃ u, x.rules u) (hlocked : ∀ name, x.lock = some name → (name, .exclusive) ∈ t.locks)
    (hok : ChangeOk db t x)
    (htodo : ∀ a ∈ t.todo, ActionOk db t a ∧ ¬ a.entering ∧ (∀ id, ¬ a.works id) ∧ ∀ id, ¬ a.stops id)
    (hfirst : ∀ a ∈ t.todo.tail, ¬ a.findsSegments)
    (hfinds : ∀ u, (applyAll t.changes db).allowedFor u = .desktopOnly → db.allowedFor u = .desktopOnly ∨
      (∃ a ∈ t.todo, a.findsSegments) ∧ ∃ a ∈ t.todo, a.findsSessions) : Disciplined db t := by
  have honly : ∀ y ∈ t.changes, y = x := by
    rw [hchanges]
    exact fun y hy => List.mem_singleton.mp hy
  exact .fresh hdb (fun y hy => honly y hy ▸ hrules) (fun y hy => honly y hy ▸ hlocked)
    (fun y hy => honly y hy ▸ hok) (fun a ha => (htodo a ha).1)
    (fun a ha h => absurd h (htodo a ha).2.1) hfirst (fun id a ha hw => absurd hw ((htodo a ha).2.2.1 id))
    (fun id a ha hs => absurd hs ((htodo a ha).2.2.2 id)) hfinds

theorem webTimerStatements_ok {userId : Option Nat} (hholds : HoldsPolicy t userId) (now : Int) :
    ∀ a ∈ webTimerStatements now userId, ActionOk db t a ∧ ¬ a.entering ∧ (∀ id, ¬ a.works id) ∧
      ∀ id, ¬ a.stops id := by
  refine List.forall_mem_cons.mpr ⟨⟨hholds, fun h => h, fun _ h => h, fun _ h => h⟩,
    List.forall_mem_cons.mpr ⟨⟨trivial, fun h => h, fun _ h => h, fun _ h => h⟩,
      List.forall_mem_singleton.mpr ⟨hholds, fun h => h, fun _ h => h, fun _ h => h⟩⟩⟩

theorem webTimerStatements_first (now : Int) (userId : Option Nat) :
    ∀ a ∈ (webTimerStatements now userId).tail, ¬ a.findsSegments :=
  List.forall_mem_cons.mpr ⟨fun h => h, List.forall_mem_singleton.mpr fun h => h⟩

theorem webTimerStatements_finds (now : Int) (userId : Option Nat) :
    (∃ a ∈ webTimerStatements now userId, a.findsSegments) ∧
      ∃ a ∈ webTimerStatements now userId, a.findsSessions :=
  ⟨⟨_, List.mem_cons_self, trivial⟩,
    ⟨_, List.mem_cons_of_mem _ (List.mem_cons_of_mem _ List.mem_cons_self), trivial⟩⟩

theorem Disciplined.wroteOrganization (hdb : PolicySound db) (hchanges : t.changes = []) {value : AllowedApps}
    (hholds : HoldsPolicy t none) {now : Int} :
    Disciplined db (t.after (writes [.allowedApps value]
      (if value = .desktopOnly then webTimerStatements now none else [])) []) := by
  have hglobal : (.global, .exclusive) ∈ t.locks := hholds.2.resolve_right fun ⟨_, hu, _⟩ => nomatch hu
  have hchanges' : (t.after (writes [.allowedApps value]
      (if value = .desktopOnly then webTimerStatements now none else [])) []).changes = [.allowedApps value] := by
    show t.changes ++ [.allowedApps value] = _
    rw [hchanges, List.nil_append]
  refine .updated hdb hchanges' ⟨none, trivial⟩ (fun name hname => ?_)
    ⟨List.mem_append_left _ hglobal, hholds.1⟩ ?_ ?_ fun u hpolicy => ?_
  · cases hname
    exact List.mem_append_right _ (List.mem_singleton_self _)
  · intro a ha
    rw [show (t.after _ []).todo = _ from List.append_nil _] at ha
    simp only [writes] at ha
    split at ha
    · refine webTimerStatements_ok ?_ now a ha
      exact ⟨hholds.1, .inl (List.mem_append_left _ hglobal), fun u hu => nomatch hu⟩
    · exact absurd ha List.not_mem_nil
  · rw [show (t.after _ []).todo = _ from List.append_nil _]
    simp only [writes]
    split
    · exact webTimerStatements_first now none
    · exact fun a ha => absurd ha List.not_mem_nil
  · rw [show (t.after _ []).todo = _ from List.append_nil _]
    simp only [writes]
    by_cases hvalue : value = .desktopOnly
    · rw [if_pos hvalue]
      exact .inr (webTimerStatements_finds now none)
    · -- whoever must use the desktop by the new value, must by an override
      refine .inl ?_
      rw [hchanges', Database.allowedFor_eq, PolicyChange.applyAll_policyOf] at hpolicy
      rw [Database.allowedFor_eq]
      simp only [List.foldl_cons, List.foldl_nil, PolicyChange.onPolicy] at hpolicy
      cases hoverride : (db.policyOf u).2 with
      | none =>
        rw [hoverride] at hpolicy
        exact absurd hpolicy hvalue
      | some v =>
        rw [hoverride] at hpolicy
        exact hpolicy

theorem Disciplined.wroteMember (hdb : PolicySound db) (hchanges : t.changes = []) {m : MemberUpdate}
    (hlocks : (.member m.userId, .exclusive) ∈ t.locks ∧ (.global, .shared) ∈ t.locks)
    (hupdate : t.request.isSync = false) :
    Disciplined db (t.after (writes [.memberSettings m.userId
      (if m.allowedApps.isNone && !m.otherOverrides then none else some m.allowedApps)] [.readOrganization m]) []) := by
  generalize hrow : (if m.allowedApps.isNone && !m.otherOverrides then none else some m.allowedApps) = row
  have hjoin : row.join = m.allowedApps := by
    rw [← hrow]
    split
    · rename_i hnone
      rw [Option.isNone_iff_eq_none.mp (Bool.and_eq_true_iff.mp hnone).1]
      rfl
    · rfl
  have hchanges' : (t.after (writes [.memberSettings m.userId row] [.readOrganization m]) []).changes =
      [.memberSettings m.userId row] := by
    show t.changes ++ [.memberSettings m.userId row] = _
    rw [hchanges, List.nil_append]
  have hlocks' : (.member m.userId, .exclusive) ∈
      (t.after (writes [.memberSettings m.userId row] [.readOrganization m]) []).locks ∧
      (.global, .shared) ∈ (t.after (writes [.memberSettings m.userId row] [.readOrganization m]) []).locks :=
    ⟨List.mem_append_left _ hlocks.1, List.mem_append_left _ hlocks.2⟩
  refine .updated hdb hchanges' ⟨some m.userId, rfl⟩ (fun name hname => ?_) ⟨hlocks', hupdate⟩ ?_
    (fun a ha => absurd ha List.not_mem_nil) fun u _ => ?_
  · cases hname
    exact List.mem_append_right _ (List.mem_singleton_self _)
  · refine List.forall_mem_singleton.mpr ⟨⟨⟨hupdate, .inr ⟨_, rfl, hlocks'⟩, fun u hu => ?_⟩, ?_⟩, fun h => h,
      fun _ h => h, fun _ h => h⟩
    · rw [hchanges']
      exact List.forall_mem_singleton.mpr fun v h => Eq.trans h hu
    · rw [hchanges', PolicyChange.applyAll_policyOf]
      simp only [List.foldl_cons, List.foldl_nil, PolicyChange.onPolicy, if_true]
      exact hjoin
  · exact .inr ⟨⟨_, List.mem_cons_self, trivial⟩, ⟨_, List.mem_cons_self, trivial⟩⟩

/-- **The statements before the first change, and the one that writes the policy.** -/
theorem Disciplined.acts_entering {tie : AgentStateEvent → Nat} {uuid : Nat} {a : PolicyAction}
    {e : Effect PolicyLock PolicyAction PolicyChange} (hdb : PolicySound db) (hchanges : t.changes = [])
    (hentering : a.entering) (hok : ActionOk db t a) (hact : a.act tie db uuid = .ok e) :
    Disciplined db (t.after e []) := by
  -- where nothing is changed, one more thing to do that relies on what is locked by now
  have henters : ∀ b : PolicyAction, b.entering → e.changes = [] → e.todo = [b] →
      (Grows t (t.after e []) → ActionOk db (t.after e []) b) → Disciplined db (t.after e []) := by
    intro b hb hnone htodo hb'
    refine .enters hdb (a := b) ?_ ?_ hb (hb' (.after t [] ?_))
    · show t.changes ++ e.changes = []
      rw [hchanges, hnone]
      rfl
    · show e.todo ++ [] = [b]
      rw [List.append_nil, htodo]
    · rw [hnone]
      exact fun x hx => absurd hx List.not_mem_nil
  have hlocked : ∀ l ∈ e.locks, l ∈ (t.after e []).locks := fun l hl => List.mem_append_right _ hl
  cases a with
  | lockGlobalShared h =>
    cases hact
    exact henters (.lockMemberShared h) trivial rfl rfl fun hgrows => ⟨hgrows.admitted hok, hlocked _ (List.mem_singleton_self _)⟩
  | lockMemberShared h =>
    cases hact
    refine henters (.checkPolicy h) trivial rfl rfl fun hgrows =>
      ⟨hgrows.admitted hok.1, hgrows.locks _ hok.2, fun owner howner => hlocked _ ?_⟩
    exact List.mem_map.mpr ⟨owner, Option.mem_toList.mpr howner, rfl⟩
  | checkPolicy h =>
    obtain ⟨_, hcheck, hact⟩ := Library.bind_eq_ok.mp hact
    cases hact
    refine henters (.lockTimer h) trivial rfl rfl fun hgrows => ⟨hgrows.admitted hok.1, fun hactive hkind => ?_⟩
    obtain ⟨owner, howner⟩ := Option.isSome_iff_exists.mp (hok.1.active hactive)
    have hallowed := checkDesktopPolicy_isOk.mp hcheck owner howner hactive hkind
    refine ⟨owner.id, hok.1.owner owner howner, hgrows.locks _ hok.2.1,
      hgrows.locks _ (hok.2.2 owner howner), ?_⟩
    show db.effectiveAllowedApps owner.id = .all
    cases hvalue : db.effectiveAllowedApps owner.id with
    | all => rfl
    | desktopOnly => exact absurd hvalue hallowed
  | lockTimer h =>
    cases hact
    refine henters (.lockDevice h) trivial rfl rfl fun hgrows =>
      ⟨hgrows.admitted hok.1, hgrows.checked hok.2, fun u hu => hlocked _ ?_⟩
    exact List.mem_map.mpr ⟨u, Option.mem_toList.mpr hu, rfl⟩
  | lockDevice h =>
    cases hact
    exact henters (.readDuplicate h) trivial rfl rfl fun hgrows =>
      ⟨hgrows.admitted hok.1, hgrows.checked hok.2.1, fun u hu => hgrows.locks _ (hok.2.2 u hu),
        hlocked _ (List.mem_singleton_self _)⟩
  | readDuplicate h =>
    by_cases hduplicate : (duplicateReceipt db h.call).isSome
    · -- a duplicate has nothing left to do
      simp only [PolicyAction.act, if_pos hduplicate] at hact
      cases hact
      have hplan : Plan db (t.after ({ todo := [] } : Effect PolicyLock PolicyAction PolicyChange) [])
          (fun _ => False) (fun _ => False) [] := .quiet (by simp)
      exact .planned hdb (by simp [Transaction.after, hchanges]) hplan hok.admitted.sync fun _ h => False.elim h
    · simp only [PolicyAction.act, if_neg hduplicate] at hact
      cases hact
      exact henters (.readPrevious h) trivial rfl rfl fun hgrows => hgrows.cleared hok
  | readPrevious h =>
    cases hact
    exact henters (.readSession h _) trivial rfl rfl fun hgrows => hgrows.cleared hok
  | readSession h previous =>
    cases hact
    refine henters (.readOther h previous _) trivial rfl rfl fun hgrows => ⟨hgrows.cleared hok, fun s hs => ?_⟩
    obtain ⟨hmem, hlive, hdevice⟩ := deviceSession_mem hs
    exact ⟨s, hmem, rfl, hdevice, fun _ => hdb.unended s hmem (s.live_iff.mp hlive)⟩
  | readOther h previous session =>
    obtain ⟨hcleared, hsession⟩ := hok
    obtain ⟨hnone, W, S, hplan, hdisjoint⟩ :=
      Plan.readOther hdb hcleared (fun s hs => ⟨hsession s hs⟩) hact
    have hgrows : Grows t (t.after e []) := .after t [] (by simp [hnone])
    have htodo : (t.after e []).todo = e.todo := List.append_nil _
    refine .planned hdb ?_ (htodo.symm ▸ hplan.grows hgrows) (hgrows.isSync.trans hcleared.admitted.sync) hdisjoint
    show t.changes ++ e.changes = []
    rw [hchanges, hnone]
    rfl
  | lockGlobal now value =>
    cases hact
    exact henters (.writeOrganization now value) trivial rfl rfl fun hgrows =>
      ⟨hgrows.isSync.trans hok, .inl (hlocked _ (List.mem_singleton_self _)), fun u hu => nomatch hu⟩
  | writeOrganization now value =>
    cases hact
    exact .wroteOrganization hdb hchanges hok
  | lockMembers m =>
    cases hact
    exact henters (.lockMember m) trivial rfl rfl fun hgrows =>
      ⟨hgrows.isSync.trans hok, hlocked _ (List.mem_singleton_self _)⟩
  | lockMember m =>
    cases hact
    exact henters (.checkTarget m) trivial rfl rfl fun hgrows =>
      ⟨⟨hlocked _ (List.mem_singleton_self _), hgrows.locks _ hok.2⟩, hgrows.isSync.trans hok.1⟩
  | checkTarget m =>
    obtain ⟨_, _, hact⟩ := Library.bind_eq_ok.mp hact
    cases hact
    exact henters (.writeMember m) trivial rfl rfl fun hgrows =>
      ⟨⟨hgrows.locks _ hok.1.1, hgrows.locks _ hok.1.2⟩, hgrows.isSync.trans hok.2⟩
  | writeMember m =>
    cases hact
    exact .wroteMember hdb hchanges hok.1 hok.2
  | _ => exact False.elim hentering

/-! ## The statements after that -/

/-- The statement makes such a change, or leaves such an action. -/
def Leaves (e : Effect PolicyLock PolicyAction PolicyChange) (p : PolicyChange → Prop) (q : PolicyAction → Prop) :
    Prop :=
  (∃ x ∈ e.changes, p x) ∨ ∃ a ∈ e.todo, q a

variable {e : Effect PolicyLock PolicyAction PolicyChange} {a : PolicyAction} {rest : List PolicyAction}
variable {p : PolicyChange → Prop} {q : PolicyAction → Prop}

theorem Will.of_after (htodo : t.todo = a :: rest) (h : Will (t.after e rest) p q) : Will t p q ∨ Leaves e p q := by
  rcases h with ⟨x, hx, hp⟩ | ⟨b, hb, hq⟩
  · exact (List.mem_append.mp hx).imp (fun hx => .inl ⟨x, hx, hp⟩) fun hx => .inl ⟨x, hx, hp⟩
  · refine (List.mem_append.mp hb).symm.imp (fun hb => .inr ⟨b, ?_, hq⟩) fun hb => .inr ⟨b, hb, hq⟩
    rw [htodo]
    exact List.mem_cons_of_mem a hb

theorem Will.after (htodo : t.todo = a :: rest) (h : Will t p q) : q a ∨ Will (t.after e rest) p q := by
  rcases h with ⟨x, hx, hp⟩ | ⟨b, hb, hq⟩
  · exact .inr (.inl ⟨x, List.mem_append_left _ hx, hp⟩)
  · rw [htodo] at hb
    rcases List.mem_cons.mp hb with rfl | hb
    · exact .inl hq
    · exact .inr (.inr ⟨b, List.mem_append_right _ hb, hq⟩)

theorem Leaves.after (h : Leaves e p q) : Will (t.after e rest) p q :=
  h.imp (fun ⟨x, hx, hp⟩ => ⟨x, List.mem_append_right _ hx, hp⟩)
    fun ⟨b, hb, hq⟩ => ⟨b, List.mem_append_left _ hb, hq⟩

/-- What a statement has to do for its transaction. -/
structure Does (db : Database) (t : PolicyTransaction) (a : PolicyAction) (rest : List PolicyAction)
    (e : Effect PolicyLock PolicyAction PolicyChange) : Prop where
  quiet : ∀ x ∈ e.changes, ∀ userId, ¬ x.rules userId
  locked : ∀ x ∈ e.changes, ∀ name, x.lock = some name → (name, .exclusive) ∈ e.locks
  changes : ∀ x ∈ e.changes, ChangeOk db (t.after e rest) x
  todo : ∀ b ∈ e.todo, ActionOk db (t.after e rest) b ∧ ¬ b.entering
  findsFirst : ∀ b ∈ e.todo.tail, ¬ b.findsSegments
  works : ∀ id, Leaves e (·.works id) (·.works id) → t.request.isSync = true ∧ ¬ StopsSession t id ∧
    ¬ Leaves e (·.stops id) (·.stops id)
  stops : ∀ id, Leaves e (·.stops id) (·.stops id) → ¬ WorksIn t id ∧
    ∀ g ∈ db.segments, g.endedAt = none → g.sessionId = id → EndsSegment (t.after e rest) g
  stopped : ∀ id, a.stops id → Leaves e (·.stops id) (·.stops id)
  ends : ∀ g ∈ db.segments, g.endedAt = none → a.ends g → EndsSegment (t.after e rest) g
  sessionKeys : (db.workSessions.map (·.id) ++ insertedIds (t.changes ++ e.changes)).Nodup
  segmentKeys : (db.segments.map (·.id) ++ startedIds (t.changes ++ e.changes)).Nodup
  segments : a.findsSegments → ∀ g ∈ db.segments, g.endedAt = none → ∀ ws ∈ db.workSessions, ws.id = g.sessionId →
    db.nonDesktop ws = true → (applyAll t.changes db).allowedFor ws.userId = .desktopOnly →
      EndsSegment (t.after e rest) g ∨ ∃ b ∈ e.todo, b.findsSegments
  sessions : a.findsSessions → ∀ ws ∈ db.workSessions, ws.status = .active → db.nonDesktop ws = true →
    (applyAll t.changes db).allowedFor ws.userId = .desktopOnly →
      StopsSession (t.after e rest) ws.id ∨ ∃ b ∈ e.todo, b.findsSessions

/-- A statement that does its part keeps what holds of the transaction. -/
theorem Does.disciplined (ht : Disciplined db t) (htodo : t.todo = a :: rest) (hnot : ¬ a.entering)
    (h : Does db t a rest e) : Disciplined db (t.after e rest) := by
  have hgrows : Grows t (t.after e rest) := .after t rest h.quiet
  have hrest : ∀ b ∈ rest, b ∈ t.todo := fun b hb => htodo ▸ List.mem_cons_of_mem a hb
  refine ⟨?_, ?_, ?_, ?_, ?_, ?_, ?_, h.sessionKeys, h.segmentKeys, ?_, ?_, ?_⟩
  · intro x hx name hname
    rcases List.mem_append.mp hx with hold | hnew
    · exact List.mem_append_left _ (ht.locked x hold name hname)
    · exact List.mem_append_right _ (h.locked x hnew name hname)
  · intro x hx
    rcases List.mem_append.mp hx with hold | hnew
    · exact hgrows.changeOk (ht.changes x hold)
    · exact h.changes x hnew
  · intro b hb
    rcases List.mem_append.mp hb with hnew | hold
    · exact (h.todo b hnew).1
    · exact hgrows.actionOk (ht.todo b (hrest b hold))
  · intro b hb hentering
    rcases List.mem_append.mp hb with hnew | hold
    · exact absurd hentering (h.todo b hnew).2
    · -- an entering statement would be the only one
      have halone := (ht.entering b (hrest b hold) hentering).2
      rw [htodo] at halone
      exact absurd ((List.cons.inj halone).1 ▸ hentering) hnot
  · intro b hb
    have hold : ∀ b ∈ rest, ¬ b.findsSegments := by
      have := ht.findsFirst
      rw [htodo] at this
      exact this
    cases htodo' : e.todo with
    | nil =>
      rw [show (t.after e rest).todo = rest by simp [Transaction.after, htodo']] at hb
      exact hold b (List.mem_of_mem_tail hb)
    | cons b' more =>
      rw [show (t.after e rest).todo = b' :: (more ++ rest) by simp [Transaction.after, htodo']] at hb
      rcases List.mem_append.mp hb with hnew | hlater
      · exact h.findsFirst b (by rw [htodo']; exact hnew)
      · exact hold b hlater
  · intro id hworks hstops
    rcases Will.of_after htodo hworks with hworks | hworks
    · rcases Will.of_after htodo hstops with hstops | hstops
      · exact ht.apart id hworks hstops
      · exact (h.stops id hstops).1 hworks
    · obtain ⟨_, hnone, hnot⟩ := h.works id hworks
      exact (Will.of_after htodo hstops).elim hnone hnot
  · intro hupdate id hworks
    rcases Will.of_after htodo hworks with hworks | hworks
    · exact ht.idle hupdate id hworks
    · exact Bool.noConfusion ((h.works id hworks).1.symm.trans hupdate)
  · intro g hg hopen hstops
    rcases Will.of_after htodo hstops with hstops | hstops
    · rcases Will.after htodo (ht.ending g hg hopen hstops) with hends | hends
      · exact h.ends g hg hopen hends
      · exact hends
    · exact (h.stops _ hstops).2 g hg hopen rfl
  · intro g hg hopen ws hws hid hnonDesktop hpolicy
    replace hpolicy := (hgrows.allowedFor db _).symm.trans hpolicy
    rcases ht.segments g hg hopen ws hws hid hnonDesktop hpolicy with hends | ⟨b, hb, hfinds⟩
    · exact .inl ((Will.after htodo hends).elim (h.ends g hg hopen) fun hends => hends)
    · rw [htodo] at hb
      rcases List.mem_cons.mp hb with rfl | hb
      · exact (h.segments hfinds g hg hopen ws hws hid hnonDesktop hpolicy).imp_right
          fun ⟨b, hb, hfinds⟩ => ⟨b, List.mem_append_left _ hb, hfinds⟩
      · exact .inr ⟨b, List.mem_append_right _ hb, hfinds⟩
  · intro ws hws hactive hnonDesktop hpolicy
    replace hpolicy := (hgrows.allowedFor db _).symm.trans hpolicy
    rcases ht.sessions ws hws hactive hnonDesktop hpolicy with hstops | ⟨b, hb, hfinds⟩
    · exact .inl ((Will.after htodo hstops).elim (fun hstops => (h.stopped _ hstops).after) fun hstops => hstops)
    · rw [htodo] at hb
      rcases List.mem_cons.mp hb with rfl | hb
      · exact (h.sessions hfinds ws hws hactive hnonDesktop hpolicy).imp_right
          fun ⟨b, hb, hfinds⟩ => ⟨b, List.mem_append_left _ hb, hfinds⟩
      · exact .inr ⟨b, List.mem_append_right _ hb, hfinds⟩

/-! ### Statements that only read -/

theorem insertedIds_append (cs more : List PolicyChange) :
    insertedIds (cs ++ more) = insertedIds cs ++ insertedIds more := by
  simp [insertedIds]

theorem startedIds_append (cs more : List PolicyChange) :
    startedIds (cs ++ more) = startedIds cs ++ startedIds more := by
  simp [startedIds]

/-- A statement that makes no changes, works nowhere and stops nothing. -/
theorem Does.reads (ht : Disciplined db t) (hchanges : e.changes = [])
    (htodo : ∀ b ∈ e.todo, ActionOk db (t.after e rest) b ∧ ¬ b.entering ∧ (∀ id, ¬ b.works id) ∧ ∀ id, ¬ b.stops id)
    (hfirst : ∀ b ∈ e.todo.tail, ¬ b.findsSegments) (hstopped : ∀ id, ¬ a.stops id)
    (hends : ∀ g ∈ db.segments, g.endedAt = none → a.ends g → EndsSegment (t.after e rest) g)
    (hsegments : a.findsSegments → ∀ g ∈ db.segments, g.endedAt = none → ∀ ws ∈ db.workSessions,
      ws.id = g.sessionId → db.nonDesktop ws = true →
        (applyAll t.changes db).allowedFor ws.userId = .desktopOnly →
          EndsSegment (t.after e rest) g ∨ ∃ b ∈ e.todo, b.findsSegments)
    (hsessions : a.findsSessions → ∀ ws ∈ db.workSessions, ws.status = .active → db.nonDesktop ws = true →
      (applyAll t.changes db).allowedFor ws.userId = .desktopOnly →
        StopsSession (t.after e rest) ws.id ∨ ∃ b ∈ e.todo, b.findsSessions) : Does db t a rest e := by
  have hnone : ∀ {p : PolicyChange → Prop} {q : PolicyAction → Prop}, (∀ b ∈ e.todo, ¬ q b) → ¬ Leaves e p q := by
    rintro p q hq (⟨x, hx, _⟩ | ⟨b, hb, hq'⟩)
    · rw [hchanges] at hx
      exact absurd hx List.not_mem_nil
    · exact hq b hb hq'
  refine ⟨by simp [hchanges], by simp [hchanges], by simp [hchanges], fun b hb => ⟨(htodo b hb).1, (htodo b hb).2.1⟩,
    hfirst, fun id h => absurd h (hnone fun b hb => (htodo b hb).2.2.1 id),
    fun id h => absurd h (hnone fun b hb => (htodo b hb).2.2.2 id), fun id h => absurd h (hstopped id), hends, ?_, ?_,
    hsegments, hsessions⟩
  · rw [hchanges, List.append_nil]
    exact ht.sessionKeys
  · rw [hchanges, List.append_nil]
    exact ht.segmentKeys

/-- A segment that was open and is closed in what the transaction reads, is ended by it. -/
theorem open_or_ends {g : Segment} (hopen : g.endedAt = none) :
    (settleSegment t.changes g).endedAt = none ∨ ∃ x ∈ t.changes, x.ends g := by
  by_cases hends : ∃ x ∈ t.changes, x.ends g
  · exact .inr hends
  · have hsame : settleSegment t.changes g = g :=
      PolicyChange.settleSegment_of_not_ends fun x hx hx' => hends ⟨x, hx, hx'⟩
    exact .inl (hsame.symm ▸ hopen)

theorem Does.closeSegments (ht : Disciplined db t) {id : Nat} {endedAt : Int} (hsync : t.request.isSync = true) :
    Does db t (.closeSegments id endedAt) rest
      { todo := [.endSegments (((applyAll t.changes db).openSegments id).map (·.id)) endedAt true] } := by
  refine .reads ht rfl (List.forall_mem_singleton.mpr ?_) (by simp) (fun _ h => h) (fun g hg hopen hends => ?_)
    (fun h => False.elim h) fun h => False.elim h
  · exact ⟨fun _ _ => .inl hsync, fun h => h, fun _ h => h, fun _ h => h⟩
  · rcases open_or_ends (t := t) hopen with hopen' | ⟨x, hx, hends'⟩
    · refine .inr ⟨_, List.mem_cons_self, List.mem_map.mpr ⟨settleSegment t.changes g, ?_, settleSegment_id _ _⟩⟩
      refine List.mem_filter.mpr ⟨PolicyChange.settleSegment_mem hg, ?_⟩
      rw [settleSegment_sessionId, show id = g.sessionId from hends, beq_self_eq_true, Bool.true_and]
      exact (Segment.isOpen_iff _).mpr hopen'
    · exact .inl ⟨x, List.mem_append_left _ hx, hends'⟩

theorem Does.closeWebBreaks (ht : Disciplined db t) {now : Int} {userId : Option Nat} {ids : List Nat} :
    Does db t (.closeWebBreaks now userId) rest { todo := [.endBreaks ids now] } :=
  .reads ht rfl (List.forall_mem_singleton.mpr ⟨trivial, fun h => h, fun _ h => h, fun _ h => h⟩) (by simp)
    (fun _ h => h) (fun _ _ _ h => False.elim h) (fun h => False.elim h) fun h => False.elim h

/-- Who tracks past the policy of the transaction, tracks in a session of the users whose policy it changes. -/
theorem HoldsPolicy.scope (hdb : PolicySound db) {userId : Option Nat} (h : HoldsPolicy t userId) {ws : WorkSession}
    (hws : ws ∈ db.workSessions) (hnonDesktop : db.nonDesktop ws = true) (htracks : db.tracks ws = true)
    (hpolicy : (applyAll t.changes db).allowedFor ws.userId = .desktopOnly) :
    ∀ u, userId = some u → ws.userId = some u := by
  intro u hu
  by_contra hother
  refine hdb.noBypass ws hws hnonDesktop htracks ?_
  rw [← hpolicy]
  exact (allowedFor_applyAll_of_not_rules (fun x hx hrules => hother (h.only u hu x hx _ hrules)) db).symm

theorem Does.readOrganization (hdb : PolicySound db) (ht : Disciplined db t) {m : MemberUpdate}
    (hok : ActionOk db t (.readOrganization m)) :
    Does db t (.readOrganization m) rest
      { todo := if m.allowedApps.getD (applyAll t.changes db).allowedApps = .desktopOnly then
          webTimerStatements m.now (some m.userId) else [] } := by
  obtain ⟨hholds, hvalue⟩ := hok
  by_cases hpolicy : m.allowedApps.getD (applyAll t.changes db).allowedApps = .desktopOnly
  · simp only [if_pos hpolicy]
    have hgrows : Grows t (t.after { todo := webTimerStatements m.now (some m.userId) } rest) :=
      .after t rest (by simp)
    exact .reads ht rfl (webTimerStatements_ok (hgrows.holdsPolicy hholds) m.now)
      (webTimerStatements_first _ _) (fun _ h => h) (fun _ _ _ h => False.elim h)
      (fun _ _ _ _ _ _ _ _ _ => .inr (webTimerStatements_finds _ _).1)
      fun _ _ _ _ _ _ => .inr (webTimerStatements_finds _ _).2
  · -- whoever tracks is the member, and the member may use all apps
    have hnobody : ∀ ws ∈ db.workSessions, db.nonDesktop ws = true → db.tracks ws = true →
        (applyAll t.changes db).allowedFor ws.userId ≠ .desktopOnly := by
      intro ws hws hnonDesktop htracks hrestricted
      have huser := hholds.scope hdb hws hnonDesktop htracks hrestricted m.userId rfl
      rw [Database.allowedFor_eq, huser, hvalue] at hrestricted
      exact hpolicy hrestricted
    simp only [if_neg hpolicy]
    refine .reads ht rfl (by simp) (by simp) (fun _ h => h) (fun _ _ _ h => False.elim h) ?_ ?_
    · intro _ g hg hopen ws hws hid hnonDesktop hrestricted
      exact absurd hrestricted (hnobody ws hws hnonDesktop (tracks_of_open hg hopen hid))
    · intro _ ws hws hactive hnonDesktop hrestricted
      exact absurd hrestricted (hnobody ws hws hnonDesktop (tracks_of_active hactive))

/-! ### The sessions that the policy forbids -/

theorem webTimerClosing_sessions (db : Database) (userId : Option Nat) (ws : WorkSession) :
    (webTimerClosing db userId).sessions ws = true ↔ (db.nonDesktop ws = true ∧ ws.endedAt = none) ∧
      db.allowedFor ws.userId = .desktopOnly ∧ ∀ u, userId = some u → ws.userId = some u := by
  unfold webTimerClosing
  simp only [Bool.and_eq_true, Option.isNone_iff_eq_none, beq_iff_eq, Option.all_eq_true, and_assoc]
  rfl

/-- An update reads no session and no segment but the committed ones. -/
theorem Disciplined.read_session (ht : Disciplined db t) (hupdate : t.request.isSync = false) {ws' : WorkSession}
    (h : ws' ∈ (applyAll t.changes db).workSessions) : ∃ ws ∈ db.workSessions, ws' = settleSession t.changes ws := by
  rcases PolicyChange.mem_applyAll_sessions h with hcommitted | ⟨ws, rest, hinserted, _⟩
  · exact hcommitted
  · exact absurd (.of_change hinserted rfl) (ht.idle hupdate ws.id)

theorem Disciplined.read_segment (ht : Disciplined db t) (hupdate : t.request.isSync = false) {g' : Segment}
    (h : g' ∈ (applyAll t.changes db).segments) : ∃ g ∈ db.segments, g' = settleSegment t.changes g := by
  rcases PolicyChange.mem_applyAll_segments h with hcommitted | ⟨g, rest, hstarted, _⟩
  · exact hcommitted
  · exact absurd (.of_change hstarted rfl) (ht.idle hupdate g.sessionId)

/-- What an update selects is restricted by its policy. -/
theorem HoldsPolicy.restricted {userId : Option Nat} (h : HoldsPolicy t userId) {ws : WorkSession}
    (hselected : (webTimerClosing (applyAll t.changes db) userId).sessions (settleSession t.changes ws) = true) :
    Restricted db t ws := by
  obtain ⟨⟨hnonDesktop, _⟩, hpolicy, hscope⟩ := (webTimerClosing_sessions _ _ _).mp hselected
  rw [PolicyChange.applyAll_nonDesktop, nonDesktop_congr db (settleSession_deviceId _ _)] at hnonDesktop
  rw [settleSession_userId] at hpolicy hscope
  refine ⟨hnonDesktop, ?_, hpolicy⟩
  rcases h.enforces with hexclusive | ⟨u, hu, hlocks⟩
  · exact .inl hexclusive
  · exact .inr ⟨u, hscope u hu, hlocks⟩

/-- A restricted session of the users whose policy is changed is selected, unless it is stopped already. -/
theorem HoldsPolicy.selects {userId : Option Nat} {ws : WorkSession} (hnonDesktop : db.nonDesktop ws = true)
    (hpolicy : (applyAll t.changes db).allowedFor ws.userId = .desktopOnly)
    (hscope : ∀ u, userId = some u → ws.userId = some u) (hended : ws.endedAt = none)
    (hstops : ¬ StopsSession t ws.id) :
    (webTimerClosing (applyAll t.changes db) userId).sessions (settleSession t.changes ws) = true := by
  have hnot : ∀ x ∈ t.changes, ¬ x.stops ws.id := fun x hx hstop => hstops (.inl ⟨x, hx, hstop⟩)
  refine (webTimerClosing_sessions _ _ _).mpr ⟨⟨?_, ?_⟩, ?_, ?_⟩
  · rw [PolicyChange.applyAll_nonDesktop, nonDesktop_congr db (settleSession_deviceId _ _)]
    exact hnonDesktop
  · rw [(PolicyChange.settleSession_of_not_stops hnot).1]
    exact hended
  · rw [settleSession_userId]
    exact hpolicy
  · rw [settleSession_userId]
    exact hscope

theorem Does.closeWebSegments (hdb : PolicySound db) (ht : Disciplined db t) {now : Int} {userId : Option Nat}
    (htodo : t.todo = .closeWebSegments now userId :: rest) (hok : HoldsPolicy t userId) :
    Does db t (.closeWebSegments now userId) rest
      { todo := [.endSegments (((applyAll t.changes db).segments.filter fun g => g.isOpen &&
          (applyAll t.changes db).sessionIs (webTimerClosing (applyAll t.changes db) userId).ofSegments
            g.sessionId).map (·.id)) now false] } := by
  refine .reads ht rfl (List.forall_mem_singleton.mpr ⟨?_, fun h => h, fun _ h => h, fun _ h => h⟩) (by simp)
    (fun _ h => h) (fun _ _ _ h => False.elim h) ?_ fun h => False.elim h
  · intro id hid
    obtain ⟨g', hg', rfl⟩ := List.mem_map.mp hid
    obtain ⟨hmem, hselected⟩ := List.mem_filter.mp hg'
    obtain ⟨g, hg, rfl⟩ := ht.read_segment hok.update hmem
    obtain ⟨ws', hws', hthis⟩ := List.any_eq_true.mp (Bool.and_eq_true_iff.mp hselected).2
    obtain ⟨hsession, hselected⟩ := Bool.and_eq_true_iff.mp hthis
    obtain ⟨ws, hws, rfl⟩ := ht.read_session hok.update hws'
    have hgrows : Grows t (t.after { todo := [.endSegments (((applyAll t.changes db).segments.filter fun g =>
        g.isOpen && (applyAll t.changes db).sessionIs
          (webTimerClosing (applyAll t.changes db) userId).ofSegments g.sessionId).map (·.id)) now false] } rest) :=
      .after t rest (by simp)
    have hsession := beq_iff_eq.mp hsession
    rw [settleSession_id, settleSegment_sessionId] at hsession
    rw [settleSegment_id]
    exact .inr ⟨g, hg, rfl, ws, hws, hsession, hgrows.restricted (hok.restricted hselected)⟩
  · intro _ g hg hopen ws hws hid hnonDesktop hpolicy
    refine .inl ?_
    by_cases hstops : StopsSession t ws.id
    · -- a session that is stopped already has its segments ended
      have hends := ht.ending g hg hopen (hid ▸ hstops)
      exact (Will.after htodo hends).elim (fun h => False.elim h) fun hends => hends
    · have hscope := hok.scope hdb hws hnonDesktop (tracks_of_open hg hopen hid) hpolicy
      have hended := hdb.openUnended g hg hopen ws hws hid
      have hselected := HoldsPolicy.selects hnonDesktop hpolicy hscope hended hstops
      rcases open_or_ends (t := t) hopen with hopen' | ⟨x, hx, hends⟩
      · refine .inr ⟨_, List.mem_cons_self, List.mem_map.mpr ⟨settleSegment t.changes g, ?_, settleSegment_id _ _⟩⟩
        refine List.mem_filter.mpr ⟨PolicyChange.settleSegment_mem hg, Bool.and_eq_true_iff.mpr
          ⟨(Segment.isOpen_iff _).mpr hopen', List.any_eq_true.mpr ⟨_, PolicyChange.settleSession_mem hws, ?_⟩⟩⟩
        rw [settleSession_id, settleSegment_sessionId, hid, beq_self_eq_true, Bool.true_and]
        exact hselected
      · exact .inl ⟨x, List.mem_append_left _ hx, hends⟩

theorem Does.closeWebSessions (hdb : PolicySound db) (ht : Disciplined db t) {now : Int} {userId : Option Nat}
    (htodo : t.todo = .closeWebSessions now userId :: rest) (hok : HoldsPolicy t userId) :
    Does db t (.closeWebSessions now userId) rest
      { todo := [.stopSessions (((applyAll t.changes db).workSessions.filter
          (webTimerClosing (applyAll t.changes db) userId).sessions).map (·.id)) now] } := by
  generalize hids : ((applyAll t.changes db).workSessions.filter
    (webTimerClosing (applyAll t.changes db) userId).sessions).map (·.id) = ids
  have hgrows : Grows t (t.after { todo := [.stopSessions ids now] } rest) := .after t rest (by simp)
  -- what is selected is committed, and restricted
  have hselected : ∀ id ∈ ids, ∃ ws ∈ db.workSessions, ws.id = id ∧ Restricted db t ws := by
    rw [← hids]
    intro id hid
    obtain ⟨ws', hws', rfl⟩ := List.mem_map.mp hid
    obtain ⟨hmem, hselected⟩ := List.mem_filter.mp hws'
    obtain ⟨ws, hws, rfl⟩ := ht.read_session hok.update hmem
    exact ⟨ws, hws, (settleSession_id _ _).symm, hok.restricted hselected⟩
  have hleaves : ∀ id, Leaves ({ todo := [.stopSessions ids now] } : Effect PolicyLock PolicyAction PolicyChange)
      (·.stops id) (·.stops id) → id ∈ ids := by
    rintro id (⟨x, hx, _⟩ | ⟨b, hb, hstops⟩)
    · exact absurd hx List.not_mem_nil
    · rw [List.mem_singleton.mp hb] at hstops
      exact hstops
  have hnoWork : ∀ id, ¬ Leaves ({ todo := [.stopSessions ids now] } : Effect PolicyLock PolicyAction PolicyChange)
      (·.works id) (·.works id) := by
    rintro id (⟨x, hx, _⟩ | ⟨b, hb, hworks⟩)
    · exact absurd hx List.not_mem_nil
    · rw [List.mem_singleton.mp hb] at hworks
      exact hworks
  refine ⟨by simp, by simp, by simp, List.forall_mem_singleton.mpr ⟨fun id hid => ?_, fun h => h⟩, by simp,
    fun id h => absurd h (hnoWork id), fun id h => ⟨ht.idle hok.update id, fun g hg hopen hsession => ?_⟩,
    fun _ h => False.elim h, fun _ _ _ h => False.elim h, ?_, ?_, fun h => False.elim h,
    fun _ ws hws hactive hnonDesktop hpolicy => .inl ?_⟩
  · obtain ⟨ws, hws, hwsId, hrestricted⟩ := hselected id hid
    exact ⟨ws, hws, hwsId, .inr (hgrows.restricted hrestricted)⟩
  · -- the segments of what is stopped have been found before
    obtain ⟨ws, hws, hwsId, hrestricted⟩ := hselected id (hleaves id h)
    rcases ht.segments g hg hopen ws hws (hwsId.trans hsession.symm) hrestricted.nonDesktop hrestricted.policy with
      hends | ⟨b, hb, hfinds⟩
    · exact (Will.after htodo hends).elim (fun h => False.elim h) fun hends => hends
    · have hfirst := ht.findsFirst
      rw [htodo] at hb hfirst
      rcases List.mem_cons.mp hb with rfl | hb
      · exact False.elim hfinds
      · exact absurd hfinds (hfirst b hb)
  · rw [List.append_nil]
    exact ht.sessionKeys
  · rw [List.append_nil]
    exact ht.segmentKeys
  · by_cases hstops : StopsSession t ws.id
    · exact (Will.after htodo hstops).elim (fun h => False.elim h) fun hstops => hstops
    · have hscope := hok.scope hdb hws hnonDesktop (tracks_of_active hactive) hpolicy
      have hended := hdb.unended ws hws (by rw [hactive]; nofun)
      have hmem := HoldsPolicy.selects hnonDesktop hpolicy hscope hended hstops
      refine .inr ⟨_, List.mem_cons_self, ?_⟩
      show ws.id ∈ ids
      rw [← hids]
      exact List.mem_map.mpr ⟨settleSession t.changes ws,
        List.mem_filter.mpr ⟨PolicyChange.settleSession_mem hws, hmem⟩, settleSession_id _ _⟩

/-! ### Statements that write -/

theorem writes_locked (changes : List PolicyChange) (todo : List PolicyAction) :
    ∀ x ∈ changes, ∀ name, x.lock = some name → (name, .exclusive) ∈ (writes changes todo).locks :=
  fun x hx name hname => List.mem_filterMap.mpr ⟨x, hx, by rw [hname]; rfl⟩

/-- A statement that writes rows, none of them new, and works nowhere that the statement itself does not. -/
theorem Does.writes (ht : Disciplined db t) (htodo : t.todo = a :: rest) {changes : List PolicyChange}
    (hquiet : ∀ x ∈ changes, (∀ userId, ¬ x.rules userId) ∧ x.newSessions = [] ∧ x.newSegments = [])
    (hchanges : ∀ x ∈ changes, ChangeOk db (t.after (writes changes) rest) x)
    (hworks : ∀ x ∈ changes, ∀ id, x.works id → a.works id)
    (hstops : ∀ x ∈ changes, ∀ id, x.stops id → a.stops id)
    (hstopped : ∀ id, a.stops id → ∃ x ∈ changes, x.stops id)
    (hends : ∀ g ∈ db.segments, g.endedAt = none → a.ends g → ∃ x ∈ t.changes ++ changes, x.ends g)
    (hsegments : ¬ a.findsSegments) (hsessions : ¬ a.findsSessions) : Does db t a rest (writes changes) := by
  have hhead : a ∈ t.todo := htodo ▸ List.mem_cons_self
  have hleaves : ∀ {p : PolicyChange → Prop} {q : PolicyAction → Prop}, Leaves (Dayfinch.writes changes) p q →
      ∃ x ∈ changes, p x := by
    rintro p q (h | ⟨b, hb, _⟩)
    · exact h
    · exact absurd hb List.not_mem_nil
  have hworks' : ∀ id, Leaves (Dayfinch.writes changes) (·.works id) (·.works id) → WorksIn t id := by
    intro id h
    obtain ⟨x, hx, hw⟩ := hleaves h
    exact .inr ⟨a, hhead, hworks x hx id hw⟩
  have hstops' : ∀ id, Leaves (Dayfinch.writes changes) (·.stops id) (·.stops id) → StopsSession t id := by
    intro id h
    obtain ⟨x, hx, hs⟩ := hleaves h
    exact .inr ⟨a, hhead, hstops x hx id hs⟩
  have hends' : ∀ g ∈ db.segments, g.endedAt = none → a.ends g → EndsSegment (t.after (Dayfinch.writes changes) rest) g :=
    fun g hg hopen h => .inl (hends g hg hopen h)
  refine ⟨fun x hx => (hquiet x hx).1, writes_locked changes [], hchanges, by simp [Dayfinch.writes],
    by simp [Dayfinch.writes], fun id h => ⟨?_, ht.apart id (hworks' id h), fun hs => ht.apart id (hworks' id h) (hstops' id hs)⟩,
    fun id h => ⟨fun hw => ht.apart id hw (hstops' id h), fun g hg hopen hsession => ?_⟩,
    fun id h => .inl (hstopped id h), hends', ?_, ?_, fun h => absurd h hsegments, fun h => absurd h hsessions⟩
  · by_contra hnot
    exact ht.idle (by simpa using hnot) id (hworks' id h)
  · have := ht.ending g hg hopen (hsession ▸ hstops' id h)
    exact (Will.after htodo this).elim (hends' g hg hopen) fun hends => hends
  · rw [insertedIds_append, show insertedIds (Dayfinch.writes changes).changes = [] from
      List.map_eq_nil_iff.mpr (List.flatMap_eq_nil_iff.mpr fun x hx => (hquiet x hx).2.1), List.append_nil]
    exact ht.sessionKeys
  · rw [startedIds_append, show startedIds (Dayfinch.writes changes).changes = [] from
      List.map_eq_nil_iff.mpr (List.flatMap_eq_nil_iff.mpr fun x hx => (hquiet x hx).2.2), List.append_nil]
    exact ht.segmentKeys

theorem Does.endSegments (ht : Disciplined db t) {ids : List Nat} {endedAt : Int} {greatest : Bool}
    (htodo : t.todo = .endSegments ids endedAt greatest :: rest) (hok : ∀ id ∈ ids, Endable db t id) :
    Does db t (.endSegments ids endedAt greatest) rest
      (Dayfinch.writes (((applyAll t.changes db).segments.filter fun g => g.isOpen && ids.contains g.id).map fun g =>
        .segmentEnded g.id (if greatest then max g.startedAt endedAt else endedAt))) := by
  have hchange : ∀ x ∈ ((applyAll t.changes db).segments.filter fun g => g.isOpen && ids.contains g.id).map
      (fun g => PolicyChange.segmentEnded g.id (if greatest then max g.startedAt endedAt else endedAt)),
      ∃ id ∈ ids, ∃ stamp, x = .segmentEnded id stamp := by
    intro x hx
    obtain ⟨g, hg, rfl⟩ := List.mem_map.mp hx
    have hid := (Bool.and_eq_true_iff.mp (List.mem_filter.mp hg).2).2
    exact ⟨g.id, List.contains_iff_mem.mp hid, _, rfl⟩
  refine .writes ht htodo (fun x hx => ?_) (fun x hx => ?_) (fun x hx id h => ?_) (fun x hx id h => ?_)
    (fun id h => False.elim h) (fun g hg hopen hends => ?_) (fun h => h) fun h => h
  · obtain ⟨id, _, stamp, rfl⟩ := hchange x hx
    exact ⟨fun _ h => h, rfl, rfl⟩
  · obtain ⟨id, hid, stamp, rfl⟩ := hchange x hx
    refine Grows.endable (.after t rest fun y hy => ?_) (hok id hid)
    obtain ⟨id, _, stamp, rfl⟩ := hchange y hy
    exact fun _ h => h
  · obtain ⟨id, _, stamp, rfl⟩ := hchange x hx
    exact False.elim h
  · obtain ⟨id, _, stamp, rfl⟩ := hchange x hx
    exact False.elim h
  · rcases open_or_ends (t := t) hopen with hopen' | ⟨x, hx, hends'⟩
    · refine ⟨_, List.mem_append_right _ (List.mem_map.mpr ⟨settleSegment t.changes g, ?_, rfl⟩), settleSegment_id _ _⟩
      refine List.mem_filter.mpr ⟨PolicyChange.settleSegment_mem hg, Bool.and_eq_true_iff.mpr
        ⟨(Segment.isOpen_iff _).mpr hopen', ?_⟩⟩
      rw [settleSegment_id]
      exact List.contains_iff_mem.mpr hends
    · exact ⟨x, List.mem_append_left _ hx, hends'⟩

theorem Does.stopSessions (ht : Disciplined db t) {ids : List Nat} {endedAt : Int}
    (htodo : t.todo = .stopSessions ids endedAt :: rest) (hok : ∀ id ∈ ids, Stoppable db t id) :
    Does db t (.stopSessions ids endedAt) rest
      (Dayfinch.writes (ids.map fun id => .sessionStopped id endedAt)) := by
  have hchange : ∀ x ∈ ids.map (fun id => PolicyChange.sessionStopped id endedAt),
      ∃ id ∈ ids, x = .sessionStopped id endedAt := by
    intro x hx
    obtain ⟨id, hid, rfl⟩ := List.mem_map.mp hx
    exact ⟨id, hid, rfl⟩
  refine .writes ht htodo (fun x hx => ?_) (fun x hx => ?_) (fun x hx id h => ?_) (fun x hx id h => ?_)
    (fun id h => ⟨_, List.mem_map_of_mem h, rfl⟩) (fun g hg hopen hends => False.elim hends) (fun h => h) fun h => h
  · obtain ⟨id, _, rfl⟩ := hchange x hx
    exact ⟨fun _ h => h, rfl, rfl⟩
  · obtain ⟨id, hid, rfl⟩ := hchange x hx
    refine Grows.stoppable (.after t rest fun y hy => ?_) (hok id hid)
    obtain ⟨id, _, rfl⟩ := hchange y hy
    exact fun _ h => h
  · obtain ⟨id, _, rfl⟩ := hchange x hx
    exact False.elim h
  · obtain ⟨row, hrow, rfl⟩ := hchange x hx
    exact (show row = id from h) ▸ hrow

theorem Does.endBreaks (ht : Disciplined db t) {ids : List Nat} {endedAt : Int}
    (htodo : t.todo = .endBreaks ids endedAt :: rest) (rows : List WorkBreak) :
    Does db t (.endBreaks ids endedAt) rest (Dayfinch.writes (rows.map fun b => .breakEnded b.id endedAt)) := by
  have hchange : ∀ x ∈ rows.map (fun b => PolicyChange.breakEnded b.id endedAt), ∃ id, x = .breakEnded id endedAt := by
    intro x hx
    obtain ⟨b, _, rfl⟩ := List.mem_map.mp hx
    exact ⟨b.id, rfl⟩
  refine .writes ht htodo (fun x hx => ?_) (fun x hx => ?_) (fun x hx id h => ?_) (fun x hx id h => ?_)
    (fun id h => False.elim h) (fun g hg hopen hends => False.elim hends) (fun h => h) fun h => h
  all_goals obtain ⟨id', rfl⟩ := hchange x hx
  · exact ⟨fun _ h => h, rfl, rfl⟩
  · exact trivial
  · exact False.elim h
  · exact False.elim h

theorem Does.recordEvent (ht : Disciplined db t) {event : AgentStateEvent}
    (htodo : t.todo = .recordEvent event :: rest) :
    Does db t (.recordEvent event) rest (Dayfinch.writes [.receipt event]) := by
  refine .writes ht htodo (List.forall_mem_singleton.mpr ⟨fun _ h => h, rfl, rfl⟩)
    (List.forall_mem_singleton.mpr trivial) (List.forall_mem_singleton.mpr fun _ h => False.elim h)
    (List.forall_mem_singleton.mpr fun _ h => False.elim h) (fun id h => False.elim h)
    (fun g hg hopen hends => False.elim hends) (fun h => h) fun h => h

/-- A status other than `active` is written only to a session that has not ended. -/
theorem Does.continueSession (ht : Disciplined db t) {id : Nat} {status : SessionStatus}
    {note : String} {now : Int} (htodo : t.todo = .continueSession id status note now :: rest)
    (hguard : status ≠ .active →
      ∀ ws ∈ (applyAll t.changes db).workSessions, ws.id = id → ws.endedAt = none) :
    Does db t (.continueSession id status note now) rest
      (Dayfinch.writes [.sessionContinued id status note now]) := by
  have hhead : PolicyAction.continueSession id status note now ∈ t.todo := htodo ▸ List.mem_cons_self
  obtain ⟨_, ws, hws, hid, hworkable⟩ := ht.todo _ hhead
  have hgrows : Grows t (t.after (Dayfinch.writes [.sessionContinued id status note now]) rest) :=
    .after t rest (List.forall_mem_singleton.mpr fun _ h => h)
  have hended : ws.endedAt = none := by
    by_cases hactive : status = .active
    · exact (hworkable hactive).unended
    · have hread := hguard hactive _ (PolicyChange.settleSession_mem hws) (by rw [settleSession_id, hid])
      have hworks : WorksIn t ws.id := .inr ⟨_, hhead, hid.symm⟩
      rw [(PolicyChange.settleSession_of_not_stops (ht.not_stops_of_works hworks)).1] at hread
      exact hread
  exact .writes ht htodo (List.forall_mem_singleton.mpr ⟨fun _ h => h, rfl, rfl⟩)
    (List.forall_mem_singleton.mpr
      ⟨ws, hws, hid, hended, fun hactive => hgrows.permits (hworkable hactive).permits⟩)
    (List.forall_mem_singleton.mpr fun _ h => h) (List.forall_mem_singleton.mpr fun _ h => False.elim h)
    (fun id h => False.elim h) (fun g hg hopen hends => False.elim hends) (fun h => h) fun h => h

theorem Does.startSegment (ht : Disciplined db t) {id : Nat} {startedAt : Int} {g : Segment}
    (htodo : t.todo = .startSegment id startedAt :: rest) (hg : g.sessionId = id)
    (hfresh : g.id ∉ (applyAll t.changes db).segments.map (·.id)) :
    Does db t (.startSegment id startedAt) rest (Dayfinch.writes [.segmentStarted g]) := by
  have hhead : PolicyAction.startSegment id startedAt ∈ t.todo := htodo ▸ List.mem_cons_self
  have hworks : WorksIn t id := .inr ⟨_, hhead, rfl⟩
  have hgrows : Grows t (t.after (Dayfinch.writes [.segmentStarted g]) rest) :=
    .after t rest (List.forall_mem_singleton.mpr fun _ h => h)
  have hnoStop : ∀ id, ¬ Leaves (Dayfinch.writes [.segmentStarted g]) (·.stops id) (·.stops id) := by
    rintro id (⟨x, hx, hstops⟩ | ⟨b, hb, _⟩)
    · rw [List.mem_singleton.mp hx] at hstops
      exact hstops
    · exact absurd hb List.not_mem_nil
  have hsync : t.request.isSync = true := by
    by_contra hnot
    exact ht.idle (by simpa using hnot) id hworks
  refine ⟨List.forall_mem_singleton.mpr fun _ h => h, writes_locked _ _, List.forall_mem_singleton.mpr ?_,
    by simp [Dayfinch.writes], by simp [Dayfinch.writes], fun row h => ⟨hsync, ?_, hnoStop row⟩,
    fun row h => absurd h (hnoStop row), fun _ h => False.elim h, fun _ _ _ h => False.elim h, ?_, ?_,
    fun h => False.elim h, fun h => False.elim h⟩
  · show HasWorkable db _ g.sessionId
    rw [hg]
    exact hgrows.hasWorkable (ht.todo _ hhead)
  · rcases h with ⟨x, hx, hw⟩ | ⟨b, hb, _⟩
    · rw [List.mem_singleton.mp hx] at hw
      rw [← show g.sessionId = row from hw, hg]
      exact ht.apart id hworks
    · exact absurd hb List.not_mem_nil
  · rw [insertedIds_append]
    simpa [Dayfinch.writes, insertedIds, PolicyChange.newSessions] using ht.sessionKeys
  · rw [PolicyChange.applyAll_segmentIds] at hfresh
    rw [startedIds_append, ← List.append_assoc]
    refine List.nodup_append'.mpr ⟨ht.segmentKeys, List.nodup_singleton _, fun row hrow hnew => ?_⟩
    rw [List.mem_singleton.mp hnew] at hrow
    exact hfresh hrow

theorem Does.openSession (ht : Disciplined db t) {h : PendingSync} {observed : Int} {uuid : Nat}
    (hcleared : Cleared db t h) (he : h.openSession (applyAll t.changes db) uuid observed = .ok e) :
    Does db t (.openSession h observed) rest e := by
  unfold PendingSync.openSession at he
  split at he
  · exact absurd he nofun
  rename_i hnew
  have hfresh : uuid ∉ (applyAll t.changes db).workSessions.map (·.id) := by
    intro hmem
    obtain ⟨ws, hws, hid⟩ := List.mem_map.mp hmem
    exact hnew (List.any_eq_true.mpr ⟨ws, hws, beq_iff_eq.mpr hid⟩)
  obtain ⟨_, _, he⟩ := Library.bind_eq_ok.mp he
  cases he
  rw [PolicyChange.applyAll_sessionIds] at hfresh
  generalize hrow : ({ newWorkSession h.now (applyAll t.changes db) h.call h.adm observed with id := uuid } :
    WorkSession) = row
  have hrowFields : row.id = uuid ∧ row.deviceId = h.call.device.id ∧ row.userId = h.call.device.ownerUserId ∧
      row.status = h.adm.status ∧ row.endedAt = none := by
    rw [← hrow]
    exact ⟨rfl, rfl, rfl, rfl, rfl⟩
  obtain ⟨hid, hdevice, huser, hstatus, hended⟩ := hrowFields
  generalize htodo' : ((if h.adm.status = .active then [.startSegment uuid observed] else []) ++
    h.recordStatements observed (some uuid) : List PolicyAction) = todo
  have hgrows : Grows t (t.after (Dayfinch.writes [.sessionInserted row] todo) rest) :=
    .after t rest (List.forall_mem_singleton.mpr fun _ h => h)
  have hpermits (hactive : h.adm.status = .active) : Permits db t row := by
    intro hnonDesktop
    rw [huser]
    refine hcleared.policy hactive fun hkind => ?_
    unfold Database.nonDesktop at hnonDesktop
    rw [hdevice, hcleared.admitted.device, Option.any_some, hkind] at hnonDesktop
    exact absurd hnonDesktop (by decide)
  have hlocks : WorkLocks t row := ⟨hdevice ▸ hcleared.device, huser ▸ hcleared.timer⟩
  -- the statements that follow work in the new session, and stop nothing
  have hafter : ∀ b ∈ todo, b = .startSegment uuid observed ∧ h.adm.status = .active ∨
      ∃ event, b = .recordEvent event := by
    intro b hb
    rw [← htodo'] at hb
    rcases List.mem_append.mp hb with hstart | hrecord
    · split at hstart
      · rename_i hactive
        exact .inl ⟨List.mem_singleton.mp hstart, hactive⟩
      · exact absurd hstart List.not_mem_nil
    · unfold PendingSync.recordStatements at hrecord
      obtain ⟨eventId, _, rfl⟩ := Option.map_eq_some_iff.mp (Option.mem_toList.mp hrecord)
      exact .inr ⟨_, rfl⟩
  have hquiet : ∀ b ∈ todo, ¬ b.entering ∧ ¬ b.findsSegments ∧ (∀ id, b.works id → uuid = id) ∧
      ∀ id, ¬ b.stops id := by
    intro b hb
    rcases hafter b hb with ⟨rfl, _⟩ | ⟨event, rfl⟩
    · exact ⟨fun h => h, fun h => h, fun _ h => h, fun _ h => h⟩
    · exact ⟨fun h => h, fun h => h, fun _ h => False.elim h, fun _ h => h⟩
  have hnoStop : ∀ id, ¬ Leaves (Dayfinch.writes [.sessionInserted row] todo) (·.stops id) (·.stops id) := by
    rintro id (⟨x, hx, hstops⟩ | ⟨b, hb, hstops⟩)
    · rw [List.mem_singleton.mp hx] at hstops
      exact hstops
    · exact (hquiet b hb).2.2.2 id hstops
  refine ⟨List.forall_mem_singleton.mpr fun _ h => h, writes_locked _ _, List.forall_mem_singleton.mpr ?_,
    fun b hb => ⟨?_, (hquiet b hb).1⟩, fun b hb => (hquiet b (List.mem_of_mem_tail hb)).2.1,
    fun id hworks => ⟨hcleared.admitted.sync, fun hstops => ?_, hnoStop id⟩,
    fun id h => absurd h (hnoStop id), fun _ h => False.elim h, fun _ _ _ h => False.elim h, ?_, ?_,
    fun h => False.elim h, fun h => False.elim h⟩
  · refine ⟨hended, ⟨h.call.device, ?_, huser⟩, fun hactive => hgrows.permits (hpermits (hstatus ▸ hactive))⟩
    rw [hdevice]
    exact hcleared.admitted.device
  · rcases hafter b hb with ⟨rfl, hactive⟩ | ⟨event, rfl⟩
    · exact ⟨row, .inr (List.mem_append_right _ (List.mem_singleton_self _)), hid,
        hgrows.workable ⟨hended, hlocks, hpermits hactive⟩⟩
    · exact trivial
  · -- what is stopped is committed, and the new session is not
    have hnew : uuid = id := by
      rcases hworks with ⟨x, hx, hw⟩ | ⟨b, hb, hw⟩
      · rw [List.mem_singleton.mp hx] at hw
        exact hid.symm.trans hw
      · exact (hquiet b hb).2.2.1 id hw
    exact hfresh (List.mem_append_left _ (hnew ▸ ht.stopped_mem hstops))
  · rw [insertedIds_append, ← List.append_assoc]
    refine List.nodup_append'.mpr ⟨ht.sessionKeys, List.nodup_singleton _, fun id hold hnew => ?_⟩
    rw [List.mem_singleton.mp hnew] at hold
    exact hfresh (hid ▸ hold)
  · rw [startedIds_append]
    simpa [Dayfinch.writes, startedIds, PolicyChange.newSegments] using ht.segmentKeys

/-! ## Every statement -/

/-- The next statement writes a status other than `active` to a session that has ended. -/
def reopens (db : Database) (todo : List PolicyAction) : Bool :=
  match todo with
  | .continueSession id status _ _ :: _ =>
    status != .active && db.workSessions.any fun ws => ws.id == id && ws.endedAt.isSome
  | _ => false

/-- **What holds of a running transaction holds after its next statement.** -/
theorem Disciplined.acts {tie : AgentStateEvent → Nat} {uuid : Nat} (hdb : PolicySound db) (ht : Disciplined db t)
    (hguard : reopens (applyAll t.changes db) t.todo = false) (htodo : t.todo = a :: rest)
    (hact : a.act tie (applyAll t.changes db) uuid = .ok e) : Disciplined db (t.after e rest) := by
  have hhead : a ∈ t.todo := htodo ▸ List.mem_cons_self
  have hok := ht.todo a hhead
  by_cases hentering : a.entering
  · obtain ⟨hchanges, halone⟩ := ht.entering a hhead hentering
    rw [htodo] at halone
    obtain rfl : rest = [] := (List.cons.inj halone).2
    rw [hchanges] at hact
    exact .acts_entering hdb hchanges hentering hok hact
  · refine Does.disciplined ht htodo hentering ?_
    cases a with
    | closeSegments id endedAt =>
      cases hact
      exact .closeSegments ht hok
    | openSession h observed => exact .openSession ht hok hact
    | startSegment id startedAt =>
      simp only [PolicyAction.act] at hact
      split at hact
      · exact absurd hact nofun
      · rename_i hnew
        cases hact
        refine .startSegment ht htodo rfl fun hmem => ?_
        obtain ⟨g, hg, hid⟩ := List.mem_map.mp hmem
        exact hnew (List.any_eq_true.mpr ⟨g, hg, beq_iff_eq.mpr hid⟩)
    | continueSession id status note now =>
      cases hact
      refine .continueSession ht htodo fun hstatus ws hws hid => ?_
      rw [htodo] at hguard
      by_contra hended
      have hreopens : reopens (applyAll t.changes db) (.continueSession id status note now :: rest) = true :=
        Bool.and_eq_true_iff.mpr ⟨bne_iff_ne.mpr hstatus, List.any_eq_true.mpr ⟨ws, hws,
          Bool.and_eq_true_iff.mpr ⟨beq_iff_eq.mpr hid, Option.isSome_iff_ne_none.mpr hended⟩⟩⟩
      exact Bool.noConfusion (hguard.symm.trans hreopens)
    | recordEvent event =>
      obtain ⟨_, _, hact⟩ := Library.bind_eq_ok.mp hact
      cases hact
      exact .recordEvent ht htodo
    | readOrganization m =>
      cases hact
      exact .readOrganization hdb ht hok
    | closeWebSegments now userId =>
      cases hact
      exact .closeWebSegments hdb ht htodo hok
    | closeWebBreaks now userId =>
      cases hact
      exact .closeWebBreaks ht
    | closeWebSessions now userId =>
      cases hact
      exact .closeWebSessions hdb ht htodo hok
    | endSegments ids endedAt greatest =>
      cases hact
      exact .endSegments ht htodo hok
    | endBreaks ids endedAt =>
      simp only [PolicyAction.act] at hact
      split at hact
      · exact absurd hact nofun
      · cases hact
        exact .endBreaks ht htodo _
    | stopSessions ids endedAt =>
      cases hact
      exact .stopSessions ht htodo hok
    | _ => exact absurd trivial hentering

end

end Dayfinch
