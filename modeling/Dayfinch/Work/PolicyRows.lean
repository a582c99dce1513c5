/-
# Dayfinch.Work.PolicyRows -- what a transaction makes of the rows and of a user's policy

The database that a transaction reads is the committed one with its own changes on top. Row by row, a session of
that database is a committed session or one that the transaction has inserted, after the transaction's changes
to it; segments likewise. A user's policy is decided by two values, and a transaction that writes neither of
them leaves it as it is, whatever else is committed in between.
-/
import Dayfinch.Work.PolicyStatements

namespace Dayfinch

open Library (UniqueKey)

/-! ## The policy -/

namespace Database

/-- The session is on a device that is not a desktop. -/
def nonDesktop (db : Database) (ws : WorkSession) : Bool :=
  (db.getDevice ws.deviceId).any (·.trackerKind != .desktop)

/-- The effective `allowed_apps` of a session's user; without a user it is the organisation's. -/
def allowedFor (db : Database) (userId : Option Nat) : AllowedApps :=
  userId.elim db.allowedApps db.effectiveAllowedApps

/-- The session is active, or has an open segment. -/
def tracks (db : Database) (ws : WorkSession) : Bool :=
  ws.status == .active || db.segments.any fun g => g.sessionId == ws.id && g.isOpen

/-- The organisation's value and the override that decide a user's policy. -/
def policyOf (db : Database) (userId : Option Nat) : AllowedApps × Option AllowedApps :=
  (db.allowedApps, userId.bind fun u => (db.userTrackingSettings.find? (·.1 == u)).bind (·.2))

theorem allowedFor_eq (db : Database) (userId : Option Nat) :
    db.allowedFor userId = (db.policyOf userId).2.getD (db.policyOf userId).1 := by
  cases userId with
  | none => rfl
  | some u => rfl

end Database

/-- No session of a device that is not a desktop is active or has an open segment while its user's effective
policy is desktop-only. -/
def NoBypass (db : Database) : Prop :=
  ∀ ws ∈ db.workSessions, db.nonDesktop ws → db.tracks ws → db.allowedFor ws.userId ≠ .desktopOnly

/-- The sessions of desktops, and of users who may use all apps, are as they were, and so are their segments. -/
def SparesAllowed (before after : Database) : Prop :=
  ∀ ws ∈ before.workSessions, (before.nonDesktop ws = false ∨ after.allowedFor ws.userId = .all) →
    ws ∈ after.workSessions ∧ ∀ g ∈ before.segments, g.sessionId = ws.id → g ∈ after.segments

/-! ## Reading the rows of a transaction -/

namespace PolicyChange

/-- It stops the session. -/
def stops (sessionId : Nat) : PolicyChange → Prop
  | sessionStopped id _ => id = sessionId
  | _ => False

/-- It opens or continues work in the session. -/
def works (sessionId : Nat) : PolicyChange → Prop
  | segmentStarted g => g.sessionId = sessionId
  | sessionContinued id _ _ _ => id = sessionId
  | sessionInserted ws => ws.id = sessionId
  | _ => False

/-- It ends the segment. -/
def ends (g : Segment) : PolicyChange → Prop
  | segmentEnded id _ => id = g.id
  | _ => False

/-- It may change the policy of the user. -/
def rules (userId : Option Nat) : PolicyChange → Prop
  | allowedApps _ => True
  | memberSettings u _ => userId = some u
  | _ => False

/-- What becomes of a user's policy. -/
def onPolicy (userId : Option Nat) : PolicyChange → AllowedApps × Option AllowedApps →
    AllowedApps × Option AllowedApps
  | allowedApps value, p => (value, p.2)
  | memberSettings u row, p => if userId = some u then (p.1, row.join) else p
  | _, p => p

variable {c : PolicyChange} {cs : List PolicyChange} {db : Database}

theorem onSession_frame (c : PolicyChange) (ws : WorkSession) :
    (c.onSession ws).id = ws.id ∧ (c.onSession ws).deviceId = ws.deviceId ∧
      (c.onSession ws).userId = ws.userId := by
  cases c with
  | sessionStopped id endedAt => simp only [onSession]; split <;> exact ⟨rfl, rfl, rfl⟩
  | sessionContinued id status note now => simp only [onSession]; split <;> exact ⟨rfl, rfl, rfl⟩
  | _ => exact ⟨rfl, rfl, rfl⟩

theorem onSegment_frame (c : PolicyChange) (g : Segment) :
    (c.onSegment g).id = g.id ∧ (c.onSegment g).sessionId = g.sessionId := by
  cases c with
  | segmentEnded id endedAt => simp only [onSegment]; split <;> exact ⟨rfl, rfl⟩
  | _ => exact ⟨rfl, rfl⟩

theorem apply_policyOf (db : Database) (c : PolicyChange) (userId : Option Nat) :
    (c.apply db).policyOf userId = c.onPolicy userId (db.policyOf userId) := by
  cases c with
  | memberSettings u row =>
    simp only [apply, Database.policyOf, onAllowedApps, onMemberSettings, onPolicy]
    cases userId with
    | none => simp
    | some v =>
      by_cases huv : v = u
      · subst huv
        have hnone : (db.userTrackingSettings.filter (·.1 != v)).find? (·.1 == v) = none := by
          simp
        simp only [Option.bind_some, if_true, List.find?_append, hnone, Option.none_or]
        cases row with
        | none => rfl
        | some value => simp
      · have hkept : (db.userTrackingSettings.filter (·.1 != u)).find? (·.1 == v) =
            db.userTrackingSettings.find? (·.1 == v) := by
          rw [List.find?_filter]
          refine congrArg (List.find? · _) (funext fun row => ?_)
          by_cases hrow : row.1 = v
          · simp [hrow, huv]
          · simp [hrow]
        have hnew : ((row.map fun value => (u, value)).toList).find? (·.1 == v) = none := by
          cases row with
          | none => rfl
          | some value => simp [Ne.symm huv]
        simp only [Option.bind_some, Option.some.injEq, if_neg huv, List.find?_append, hkept, hnew,
          Option.or_none]
  | _ => rfl


theorem onPolicy_of_not_rules {userId : Option Nat} (h : ¬ c.rules userId)
    (p : AllowedApps × Option AllowedApps) : c.onPolicy userId p = p := by
  cases c with
  | allowedApps value => exact absurd trivial h
  | memberSettings u row =>
    exact if_neg h
  | _ => rfl

/-- The database that a transaction with these changes reads. -/
def applyAll (cs : List PolicyChange) (db : Database) : Database := cs.foldl apply db

@[simp] theorem applyAll_cons (c : PolicyChange) (cs : List PolicyChange) (db : Database) :
    applyAll (c :: cs) db = applyAll cs (c.apply db) := rfl

theorem applyAll_devices (cs : List PolicyChange) (db : Database) :
    (applyAll cs db).devices = db.devices ∧ (applyAll cs db).users = db.users := by
  induction cs generalizing db with
  | nil => exact ⟨rfl, rfl⟩
  | cons c cs ih => exact ih (c.apply db)

@[simp] theorem applyAll_getDevice (cs : List PolicyChange) (db : Database) (id : Nat) :
    (applyAll cs db).getDevice id = db.getDevice id := by
  unfold Database.getDevice
  rw [(applyAll_devices cs db).1]

@[simp] theorem applyAll_nonDesktop (cs : List PolicyChange) (db : Database) (ws : WorkSession) :
    (applyAll cs db).nonDesktop ws = db.nonDesktop ws := by
  unfold Database.nonDesktop
  rw [applyAll_getDevice]

/-! ### Policies -/

/-- What a transaction makes of a user's policy depends on that policy only. -/
theorem applyAll_policyOf (cs : List PolicyChange) (db : Database) (userId : Option Nat) :
    (applyAll cs db).policyOf userId = cs.foldl (fun p c => c.onPolicy userId p) (db.policyOf userId) := by
  induction cs generalizing db with
  | nil => rfl
  | cons c cs ih =>
    rw [applyAll_cons, ih, apply_policyOf]
    rfl

theorem applyAll_policyOf_congr (cs : List PolicyChange) {db db' : Database} {userId : Option Nat}
    (h : db'.policyOf userId = db.policyOf userId) :
    (applyAll cs db').policyOf userId = (applyAll cs db).policyOf userId := by
  rw [applyAll_policyOf, applyAll_policyOf, h]

theorem applyAll_policyOf_of_not_rules {userId : Option Nat} (h : ∀ c ∈ cs, ¬ c.rules userId)
    (db : Database) : (applyAll cs db).policyOf userId = db.policyOf userId := by
  rw [applyAll_policyOf]
  induction cs with
  | nil => rfl
  | cons c cs ih =>
    rw [List.foldl_cons, onPolicy_of_not_rules (h c List.mem_cons_self)]
    exact ih fun c hc => h c (List.mem_cons_of_mem _ hc)

/-! ### Sessions -/

/-- A session after these changes. -/
def settleSession (cs : List PolicyChange) (ws : WorkSession) : WorkSession :=
  cs.foldl (fun ws c => c.onSession ws) ws

theorem settleSession_frame (cs : List PolicyChange) (ws : WorkSession) :
    (settleSession cs ws).id = ws.id ∧ (settleSession cs ws).deviceId = ws.deviceId ∧
      (settleSession cs ws).userId = ws.userId := by
  induction cs generalizing ws with
  | nil => exact ⟨rfl, rfl, rfl⟩
  | cons c cs ih =>
    obtain ⟨hid, hdevice, huser⟩ := ih (c.onSession ws)
    obtain ⟨hid', hdevice', huser'⟩ := c.onSession_frame ws
    exact ⟨hid.trans hid', hdevice.trans hdevice', huser.trans huser'⟩

theorem onSession_of_not_stops {ws : WorkSession} (h : ¬ c.stops ws.id) :
    (c.onSession ws).endedAt = ws.endedAt ∧ ((c.onSession ws).status = ws.status ∨
      ∃ note now, c = sessionContinued ws.id (c.onSession ws).status note now) := by
  cases c with
  | sessionStopped id endedAt =>
    simp only [onSession]
    rw [if_neg fun hid => h hid.symm]
    exact ⟨rfl, .inl rfl⟩
  | sessionContinued id status note now =>
    simp only [onSession]
    split
    · rename_i hid
      subst hid
      exact ⟨rfl, .inr ⟨note, now, rfl⟩⟩
    · exact ⟨rfl, .inl rfl⟩
  | _ => exact ⟨rfl, .inl rfl⟩

/-- A session that is not stopped keeps its end, and its status is its own or one it was continued with. -/
theorem settleSession_of_not_stops {ws : WorkSession} (h : ∀ c ∈ cs, ¬ c.stops ws.id) :
    (settleSession cs ws).endedAt = ws.endedAt ∧ ((settleSession cs ws).status = ws.status ∨
      ∃ note now, sessionContinued ws.id (settleSession cs ws).status note now ∈ cs) := by
  induction cs generalizing ws with
  | nil => exact ⟨rfl, .inl rfl⟩
  | cons c cs ih =>
    have hid := (c.onSession_frame ws).1
    have hrest : ∀ c' ∈ cs, ¬ c'.stops (c.onSession ws).id := by
      rw [hid]
      exact fun c' hc' => h c' (List.mem_cons_of_mem _ hc')
    obtain ⟨hended, hstatus⟩ := ih hrest
    obtain ⟨hended', hstatus'⟩ := onSession_of_not_stops (h c List.mem_cons_self)
    refine ⟨hended.trans hended', ?_⟩
    rw [hid] at hstatus
    rcases hstatus with hsame | ⟨note, now, hmem⟩
    · rcases hstatus' with hsame' | ⟨note, now, hc⟩
      · exact .inl (hsame.trans hsame')
      · refine .inr ⟨note, now, ?_⟩
        rw [show (settleSession (c :: cs) ws).status = (c.onSession ws).status from hsame, ← hc]
        exact List.mem_cons_self
    · exact .inr ⟨note, now, List.mem_cons_of_mem _ hmem⟩

/-- A session that is stopped and not continued is stopped in the end. -/
theorem settleSession_of_stops {ws : WorkSession} (hstops : ∃ c ∈ cs, c.stops ws.id)
    (h : ∀ c ∈ cs, ¬ c.works ws.id) : (settleSession cs ws).status = .stopped := by
  have hkept : ∀ (c : PolicyChange) (ws : WorkSession), ¬ c.works ws.id →
      (ws.status = .stopped ∨ c.stops ws.id) → (c.onSession ws).status = .stopped := by
    intro c ws hworks hcase
    cases c with
    | sessionStopped id endedAt =>
      simp only [onSession]
      split
      · rfl
      · rename_i hid
        exact hcase.resolve_right fun hstops => hid hstops.symm
    | sessionContinued id status note now =>
      simp only [onSession]
      rw [if_neg fun hid => hworks hid.symm]
      exact hcase.resolve_right fun hstops => hstops
    | _ => exact hcase.resolve_right fun hstops => hstops
  have hstopped : ∀ (cs : List PolicyChange) (ws : WorkSession), (∀ c ∈ cs, ¬ c.works ws.id) →
      (ws.status = .stopped ∨ ∃ c ∈ cs, c.stops ws.id) → (settleSession cs ws).status = .stopped := by
    intro cs
    induction cs with
    | nil => exact fun ws _ hcase => hcase.resolve_right (by simp)
    | cons c cs ih =>
      intro ws hworks hcase
      have hid := (c.onSession_frame ws).1
      refine ih (c.onSession ws) ?_ ?_
      · rw [hid]
        exact fun c' hc' => hworks c' (List.mem_cons_of_mem _ hc')
      · rw [hid]
        rcases hcase with hstatus | ⟨c', hc', hstops⟩
        · exact .inl (hkept c ws (hworks c List.mem_cons_self) (.inl hstatus))
        · cases List.mem_cons.mp hc' with
          | inl hthis => exact .inl (hkept c ws (hworks c List.mem_cons_self) (.inr (hthis ▸ hstops)))
          | inr hlater => exact .inr ⟨c', hlater, hstops⟩
  exact hstopped cs ws h (.inr hstops)

/-- The identifiers of the sessions that are inserted. -/
def insertedIds (cs : List PolicyChange) : List Nat := (cs.flatMap newSessions).map (·.id)

theorem mem_insertedIds {id : Nat} : id ∈ insertedIds cs ↔ ∃ ws, sessionInserted ws ∈ cs ∧ ws.id = id := by
  unfold insertedIds
  constructor
  · intro h
    obtain ⟨ws, hws, hid⟩ := List.mem_map.mp h
    obtain ⟨c, hc, hnew⟩ := List.mem_flatMap.mp hws
    cases c with
    | sessionInserted row =>
      cases List.mem_singleton.mp hnew
      exact ⟨ws, hc, hid⟩
    | _ => exact absurd hnew List.not_mem_nil
  · rintro ⟨ws, hws, rfl⟩
    exact List.mem_map_of_mem (List.mem_flatMap.mpr ⟨_, hws, List.mem_singleton_self _⟩)

theorem applyAll_sessionIds (cs : List PolicyChange) (db : Database) :
    (applyAll cs db).workSessions.map (·.id) = db.workSessions.map (·.id) ++ insertedIds cs := by
  induction cs generalizing db with
  | nil => simp [applyAll, insertedIds]
  | cons c cs ih =>
    have hkept : ((·.id) ∘ c.onSession : WorkSession → Nat) = (·.id) :=
      funext fun ws => (c.onSession_frame ws).1
    rw [applyAll_cons, ih]
    simp [apply, insertedIds, hkept]

/-- A committed session is there, with the changes. -/
theorem settleSession_mem {ws : WorkSession} (h : ws ∈ db.workSessions) :
    settleSession cs ws ∈ (applyAll cs db).workSessions := by
  induction cs generalizing db ws with
  | nil => exact h
  | cons c cs ih => exact ih (List.mem_append_left _ (List.mem_map_of_mem h))

/-- A session that is there was committed, or is inserted. -/
theorem mem_applyAll_sessions {ws' : WorkSession} (h : ws' ∈ (applyAll cs db).workSessions) :
    (∃ ws ∈ db.workSessions, ws' = settleSession cs ws) ∨
      ∃ ws rest, sessionInserted ws ∈ cs ∧ rest <:+ cs ∧ ws' = settleSession rest ws := by
  induction cs generalizing db with
  | nil => exact .inl ⟨ws', h, rfl⟩
  | cons c cs ih =>
    rcases ih h with ⟨ws, hws, rfl⟩ | ⟨ws, rest, hws, hrest, rfl⟩
    · rcases List.mem_append.mp hws with hold | hnew
      · obtain ⟨row, hrow, rfl⟩ := List.mem_map.mp hold
        exact .inl ⟨row, hrow, rfl⟩
      · cases c with
        | sessionInserted row =>
          cases List.mem_singleton.mp hnew
          exact .inr ⟨ws, cs, List.mem_cons_self, List.suffix_cons _ _, rfl⟩
        | _ => exact absurd hnew List.not_mem_nil
    · exact .inr ⟨ws, rest, List.mem_cons_of_mem _ hws, hrest.trans (List.suffix_cons _ _), rfl⟩

/-- A session that is inserted is there, with the changes that came later. -/
theorem inserted_mem {ws : WorkSession} (h : sessionInserted ws ∈ cs) :
    ∃ rest, rest <:+ cs ∧ settleSession rest ws ∈ (applyAll cs db).workSessions := by
  induction cs generalizing db with
  | nil => exact absurd h List.not_mem_nil
  | cons c cs ih =>
    cases List.mem_cons.mp h with
    | inl hthis =>
      subst hthis
      have hmem : ws ∈ (apply db (sessionInserted ws)).workSessions :=
        List.mem_append_right _ (List.mem_singleton_self ws)
      have hsettled : settleSession cs ws ∈ (applyAll cs (apply db (sessionInserted ws))).workSessions :=
        settleSession_mem hmem
      exact ⟨cs, List.suffix_cons _ _, hsettled⟩
    | inr hlater =>
      obtain ⟨rest, hrest, hmem⟩ := ih hlater
      exact ⟨rest, hrest.trans (List.suffix_cons _ _), hmem⟩

/-! ### Segments -/

/-- A segment after these changes. -/
def settleSegment (cs : List PolicyChange) (g : Segment) : Segment :=
  cs.foldl (fun g c => c.onSegment g) g

theorem settleSegment_frame (cs : List PolicyChange) (g : Segment) :
    (settleSegment cs g).id = g.id ∧ (settleSegment cs g).sessionId = g.sessionId := by
  induction cs generalizing g with
  | nil => exact ⟨rfl, rfl⟩
  | cons c cs ih =>
    obtain ⟨hid, hsession⟩ := ih (c.onSegment g)
    obtain ⟨hid', hsession'⟩ := c.onSegment_frame g
    exact ⟨hid.trans hid', hsession.trans hsession'⟩

theorem settleSegment_of_not_ends {g : Segment} (h : ∀ c ∈ cs, ¬ c.ends g) : settleSegment cs g = g := by
  induction cs with
  | nil => rfl
  | cons c cs ih =>
    have hfirst : c.onSegment g = g := by
      cases c with
      | segmentEnded id endedAt =>
        simp only [onSegment]
        rw [if_neg fun hid => h _ List.mem_cons_self hid.symm]
      | _ => rfl
    unfold settleSegment
    rw [List.foldl_cons, hfirst]
    exact ih fun c hc => h c (List.mem_cons_of_mem _ hc)

/-- A segment that is open in the end was open, and is not ended. -/
theorem settleSegment_open {g : Segment} (h : (settleSegment cs g).endedAt = none) :
    g.endedAt = none ∧ ∀ c ∈ cs, ¬ c.ends g := by
  have hstep : ∀ (c : PolicyChange) (g : Segment), (c.onSegment g).endedAt = none →
      g.endedAt = none ∧ ¬ c.ends g := by
    intro c g hopen
    cases c with
    | segmentEnded id endedAt =>
      simp only [onSegment] at hopen
      split at hopen
      · exact absurd hopen nofun
      · rename_i hid
        exact ⟨hopen, fun hends => hid hends.symm⟩
    | _ => exact ⟨hopen, id⟩
  induction cs generalizing g with
  | nil => exact ⟨h, by simp⟩
  | cons c cs ih =>
    obtain ⟨hopen, hrest⟩ := ih (g := c.onSegment g) h
    obtain ⟨hopen', hfirst⟩ := hstep c g hopen
    have hid := (c.onSegment_frame g).1
    refine ⟨hopen', fun c' hc' => ?_⟩
    cases List.mem_cons.mp hc' with
    | inl hthis => exact hthis ▸ hfirst
    | inr hlater =>
      have hnot := hrest c' hlater
      cases c' with
      | segmentEnded id endedAt => exact fun hends => hnot (Eq.trans hends hid.symm)
      | _ => exact id

/-- The identifiers of the segments that are started. -/
def startedIds (cs : List PolicyChange) : List Nat := (cs.flatMap newSegments).map (·.id)

theorem mem_startedIds {id : Nat} : id ∈ startedIds cs ↔ ∃ g, segmentStarted g ∈ cs ∧ g.id = id := by
  unfold startedIds
  constructor
  · intro h
    obtain ⟨g, hg, hid⟩ := List.mem_map.mp h
    obtain ⟨c, hc, hnew⟩ := List.mem_flatMap.mp hg
    cases c with
    | segmentStarted row =>
      cases List.mem_singleton.mp hnew
      exact ⟨g, hc, hid⟩
    | _ => exact absurd hnew List.not_mem_nil
  · rintro ⟨g, hg, rfl⟩
    exact List.mem_map_of_mem (List.mem_flatMap.mpr ⟨_, hg, List.mem_singleton_self _⟩)

theorem applyAll_segmentIds (cs : List PolicyChange) (db : Database) :
    (applyAll cs db).segments.map (·.id) = db.segments.map (·.id) ++ startedIds cs := by
  induction cs generalizing db with
  | nil => simp [applyAll, startedIds]
  | cons c cs ih =>
    have hkept : ((·.id) ∘ c.onSegment : Segment → Nat) = (·.id) :=
      funext fun g => (c.onSegment_frame g).1
    rw [applyAll_cons, ih]
    simp [apply, startedIds, hkept]

theorem settleSegment_mem {g : Segment} (h : g ∈ db.segments) :
    settleSegment cs g ∈ (applyAll cs db).segments := by
  induction cs generalizing db g with
  | nil => exact h
  | cons c cs ih => exact ih (List.mem_append_left _ (List.mem_map_of_mem h))

theorem mem_applyAll_segments {g' : Segment} (h : g' ∈ (applyAll cs db).segments) :
    (∃ g ∈ db.segments, g' = settleSegment cs g) ∨
      ∃ g rest, segmentStarted g ∈ cs ∧ rest <:+ cs ∧ g' = settleSegment rest g := by
  induction cs generalizing db with
  | nil => exact .inl ⟨g', h, rfl⟩
  | cons c cs ih =>
    rcases ih h with ⟨g, hg, rfl⟩ | ⟨g, rest, hg, hrest, rfl⟩
    · rcases List.mem_append.mp hg with hold | hnew
      · obtain ⟨row, hrow, rfl⟩ := List.mem_map.mp hold
        exact .inl ⟨row, hrow, rfl⟩
      · cases c with
        | segmentStarted row =>
          cases List.mem_singleton.mp hnew
          exact .inr ⟨g, cs, List.mem_cons_self, List.suffix_cons _ _, rfl⟩
        | _ => exact absurd hnew List.not_mem_nil
    · exact .inr ⟨g, rest, List.mem_cons_of_mem _ hg, hrest.trans (List.suffix_cons _ _), rfl⟩

end PolicyChange

end Dayfinch
