/-
# Dayfinch.Work.Geofences -- the locations of a member, read in order

`POST /field/location` decides what a sample is (`enter`, `exit` or a position) when it is uploaded: it
compares the fence around the sample with the fence of the member's *latest* stored location. The
history kept beside the store here has the samples of one member that were stored, with the fence around
each, and the exits whose action did not stop the timer.

Uploads that come late, and steps straight from one fence into another, are where the stored events
differ from the trail of the samples. `Orderly` is what a step needs; `locations_consistent` says that it
is enough. Locations that an agent uploads are stored by another route, without a fence, and the purge of
old locations is left out.
-/
import Dayfinch.Library.Crossings
import Dayfinch.Work.Stops

namespace Dayfinch

open Library (run Guarded guarded_invariant orderBy latestBy Move trail final Direct Steady Alternate)

/-! ## Reading the stored locations -/

/-- The move that a stored location stands for. -/
def LocationEvent.move (event : LocationEvent) : Move Nat :=
  match event.eventType, event.geofenceId with
  | .position, place => .stay place
  | .enter, some fence => .enter fence
  | .exit, some fence => .leave fence
  | _, none => .stay none

/-- The stored locations of a user. -/
def WebStore.locationsOf (s : WebStore) (userId : Nat) : List LocationEvent :=
  s.locationEvents.filter (·.userId == some userId)

/-- A location with its time. -/
def LocationEvent.reading (event : LocationEvent) : Int × Move Nat := (event.recordedAt, event.move)

/-- The stored locations of a user, read in `recorded_at` order. -/
def WebStore.readings (s : WebStore) (userId : Nat) : List (Int × Move Nat) :=
  (orderBy (·.recordedAt) (fun _ => 0) (s.locationsOf userId)).map LocationEvent.reading

/-! ## The history of one member -/

/-- The store, the samples of the member that were stored (with the fence around each), and the exits
that asked for a stop and left the timer running. -/
structure FenceHistory where
  store : WebStore
  samples : List (Int × Option Nat) := []
  missed : List Int := []

/-- The sample that an operation uploads for the user. -/
def WebOp.sample (userId : Nat) (s : WebStore) : WebOp → Option (Int × Option Nat)
  | .request pick _ member (.location point) =>
    if member = userId then
      point.recordedAt.toUtc?.map fun instant =>
        (instant, (s.geofenceState pick userId point.inside).1.map (·.id))
    else none
  | _ => none

/-- The operation is a location that leaves a fence whose exit stops the running timer. -/
def WebOp.asksStop (userId : Nat) (s : WebStore) : WebOp → Bool
  | .request pick _ _ (.location point) =>
    (s.exitFence pick userId point).isSome && (s.activeTimer userId).isSome
  | _ => false

/-- One step. -/
def FenceHistory.step (userId : Nat) (h : FenceHistory) (op : WebOp) : FenceHistory :=
  let store := h.store.step op
  if h.store.locationEvents.length < store.locationEvents.length then
    match op.sample userId h.store with
    | some sample =>
      { store
        samples := h.samples ++ [sample]
        missed :=
          if op.asksStop userId h.store && (store.activeTimer userId).isSome then h.missed ++ [sample.1]
          else h.missed }
    | none => { h with store }
  else { h with store }

/-- Nothing uploaded yet. -/
def FenceHistory.start (db : Database) : FenceHistory where
  store := WebStore.start db

/-- The samples in order. -/
def FenceHistory.inOrder (h : FenceHistory) : List (Int × Option Nat) :=
  orderBy (·.1) (fun _ => 0) h.samples

/-- The fence around the last stored sample before an instant. -/
def FenceHistory.placeBefore (h : FenceHistory) (instant : Int) : Option Nat :=
  (latestBy (·.1) (fun _ => 0) (h.samples.filter (·.1 < instant))).bind (·.2)

/-! ## The condition and the property -/

/-- Every sample of the user has an event id of its own, the same for every upload. -/
def WebOp.Identified (userId : Nat) (idOf : Int → Nat) : WebOp → Prop
  | .request _ _ member (.location point) =>
    member = userId → ∀ instant, point.recordedAt.toUtc? = some instant → point.eventId = idOf instant
  | _ => True

/-- Where an exit stops the timer, it is the timer of the user's own web timer, with a task that fits. -/
def ExitActs (pick : Picks) (s : WebStore) (userId : Nat) (point : LocationPoint) : Prop :=
  ∀ ws, (s.exitFence pick userId point).isSome → s.activeTimer userId = some ws →
    ∃ device, s.ownWebTimer pick userId = some device ∧ device.id = ws.deviceId ∧
      TaskFits s.db (timerCall device .stopped ws.taskId ws.projectId false)

/-- **What an upload needs.** A new sample that is later than all stored ones is not straight in another
fence; one that comes late has the fence of the latest sample and of the one before it. And an exit finds
the timer that it is to stop. -/
def Orderly (userId : Nat) (h : FenceHistory) : WebOp → Prop
  | .request pick now member (.location point) =>
    member = userId → TimerRequest.Enters now h.store userId (.location point) →
      (∀ old ∈ h.store.locationEvents, old.id ≠ point.eventId) →
      (∀ instant, point.recordedAt.toUtc? = some instant →
        let fences := h.store.geofenceState pick userId point.inside
        if ∀ sample ∈ h.samples, sample.1 < instant then
          ¬ Direct (fences.2.map (·.id)) (fences.1.map (·.id))
        else fences.1.map (·.id) = fences.2.map (·.id) ∧
          fences.1.map (·.id) = h.placeBefore instant) ∧
      ExitActs pick h.store userId point
  | _ => True

/-- **The stored locations are consistent.** Read in order they are the trail of the samples; every
fence is entered and left in turn; a sample that is no longer in the fence of the one before it has left
it, and what the exit asks for has been done; and another upload of a stored sample does nothing. -/
structure LocationsConsistent (userId : Nat) (idOf : Int → Nat) (h : FenceHistory) : Prop where
  inOrder : h.store.readings userId = trail none h.inOrder
  alternate : ∀ fence,
    Alternate false ((h.store.readings userId).filterMap fun reading => reading.2.passes fence)
  leaves : ∀ before instant after rest fence, h.inOrder = before ++ (instant, after) :: rest →
    final none before = some fence → after ≠ some fence →
    (instant, Move.leave fence) ∈ h.store.readings userId
  acts : h.missed = []
  retries : ∀ (pick : Picks) (now : Int) (point : LocationPoint) (event : LocationEvent),
    event ∈ h.store.locationsOf userId → point.recordedAt.toUtc? = some event.recordedAt →
    point.eventId = idOf event.recordedAt →
    ∃ devices platform, (fieldLocation pick now h.store userId point).1 =
      { h.store with db := { h.store.db with devices }, platform }

/-! ## What a location does -/

section

variable {s : WebStore} {userId : Nat}

/-- The move of a stored location is the one between the two fences that the route read. -/
theorem crossing_move (current previous : Option Geofence) (event : LocationEvent)
    (htype : event.eventType = (crossing current previous).1)
    (hfence : event.geofenceId = (crossing current previous).2.map (·.id)) :
    event.move = Move.between (previous.map (·.id)) (current.map (·.id)) := by
  unfold LocationEvent.move
  rw [htype, hfence]
  cases previous with
  | none => cases current <;> rfl
  | some previous =>
    cases current with
    | none => rfl
    | some current =>
      by_cases hsame : current.id = previous.id <;> simp [crossing, Move.between, hsame]

/-- The store with the member's web timer and a new location. -/
def WebStore.storing (s : WebStore) (devices : List Device) (platform : Nat → String)
    (event : LocationEvent) : WebStore :=
  { s with db := { s.db with devices }, platform, locationEvents := s.locationEvents ++ [event] }

/-- How a location comes out: nothing but a device is added, or a new location is stored and the action
of the fence follows. -/
inductive LocationOutcome (pick : Picks) (now : Int) (s : WebStore) (userId : Nat) (point : LocationPoint) :
    WebStore × TimerAnswer → Prop
  | ignored (devices : List Device) (platform : Nat → String) (answer : TimerAnswer) :
      LocationOutcome pick now s userId point
        ({ s with db := { s.db with devices }, platform }, answer)
  | stored (user : User) (devices : List Device) (platform : Nat → String) (device : Device)
      (event : LocationEvent) (henters : TimerRequest.Enters now s userId (.location point))
      (hinstant : point.recordedAt.toUtc? = some event.recordedAt)
      (huser : event.userId = some userId) (hid : event.id = point.eventId)
      (hnew : ∀ old ∈ s.locationEvents, old.id ≠ event.id)
      (htype : event.eventType = (crossing (s.geofenceState pick userId point.inside).1
        (s.geofenceState pick userId point.inside).2).1)
      (hfence : event.geofenceId = (crossing (s.geofenceState pick userId point.inside).1
        (s.geofenceState pick userId point.inside).2).2.map (·.id))
      (hdevice : ({ s.db with devices }.getDevice device.id).isSome)
      (hown : ∀ own, s.ownWebTimer pick userId = some own → device = own) :
      LocationOutcome pick now s userId point
        ((crossing (s.geofenceState pick userId point.inside).1
            (s.geofenceState pick userId point.inside).2).2.elim
          (s.storing devices platform event, .accepted)
          ((s.storing devices platform event).fenceAction pick now user device (s.activeTimer userId)
            (crossing (s.geofenceState pick userId point.inside).1
              (s.geofenceState pick userId point.inside).2).1))

/-- An instant that the window check lets through. -/
theorem requireCurrent_eq_ok {now instant : Int} {value : Datetime} {naive outside : String}
    (h : requireCurrent now value naive outside = .ok instant) :
    value.toUtc? = some instant ∧ requireCurrent now value "" "" = .ok instant := by
  unfold requireCurrent at h ⊢
  cases hutc : value.toUtc? with
  | none =>
    rw [hutc] at h
    cases h
  | some utc =>
    rw [hutc] at h
    dsimp only at h ⊢
    split at h
    · cases h
    · rename_i hinside
      cases h
      exact ⟨rfl, if_neg hinside⟩

theorem fieldLocation_outcome (pick : Picks) (now : Int) (s : WebStore) (userId : Nat)
    (point : LocationPoint) :
    LocationOutcome pick now s userId point (fieldLocation pick now s userId point) := by
  unfold fieldLocation
  split
  · exact .ignored s.db.devices s.platform _
  rename_i user hworker
  split
  · exact .ignored s.db.devices s.platform _
  rename_i instant hcurrent
  dsimp only
  obtain ⟨hinstant, hcurrent'⟩ := requireCurrent_eq_ok hcurrent
  have henters : TimerRequest.Enters now s userId (.location point) := by
    refine ⟨by rw [hworker]; rfl, ?_⟩
    show (requireCurrent now point.recordedAt "" "").isOk = true
    rw [hcurrent']
    rfl
  generalize hproject : ((s.activeTimer userId).bind (·.projectId) <|> _ <|> _ : Option Nat) = projectId
  by_cases hhas : s.HasTimer pick userId projectId
  swap
  · rw [webTimerDevice_fails hhas]
    exact .ignored s.db.devices s.platform _
  obtain ⟨devices, platform, hinserted, hfound⟩ :=
    webTimerDevice_eq (getUserAny_of_worker hworker).2 hhas
  rw [hinserted]
  dsimp only
  unfold WebStore.addLocation
  dsimp only
  by_cases hold : (s.locationEvents.any fun old =>
      old.deviceId == (s.timerOf pick userId projectId).id && old.recordedAt == instant) = true
  · rw [if_pos hold]
    exact .ignored devices platform _
  rw [if_neg hold]
  by_cases hid : (s.locationEvents.any (·.id == point.eventId)) = true
  · rw [if_pos hid]
    exact .ignored devices platform _
  rw [if_neg hid]
  refine .stored user devices platform _ _ henters hinstant rfl rfl ?_ rfl rfl hfound ?_
  · intro old hold heq
    exact hid (List.any_eq_true.mpr ⟨old, hold, beq_iff_eq.mpr heq⟩)
  · intro own hown
    unfold WebStore.timerOf
    rw [hown]
    rfl

/-! ## What leaves the locations alone -/

/-- The locations and the fences are as they were. -/
structure SameFences (s s' : WebStore) : Prop where
  locations : s'.locationEvents = s.locationEvents
  fences : s'.geofences = s.geofences

theorem SameFences.rfl' : SameFences s s := ⟨rfl, rfl⟩

theorem sync_sameFences {s0 : WebStore} (h : SameFences s0 s) (pick : Picks) (now : Int) (call : SyncCall)
    (onError : Error → TimerAnswer) : SameFences s0 (s.sync pick now call onError).1 := by
  unfold WebStore.sync
  cases syncWorkSession pick.receipt now s.db call with
  | error error => exact h
  | ok result => exact ⟨h.locations, h.fences⟩

theorem insertDevice_sameFences {trackerKind : TrackerKind} {ownerUserId projectId : Option Nat}
    {platform : String} {s' : WebStore} {device : Device}
    (h : s.insertDevice trackerKind ownerUserId projectId platform = .ok (s', device)) :
    SameFences s s' := by
  unfold WebStore.insertDevice at h
  split at h
  · cases h
  · cases h
    exact ⟨rfl, rfl⟩

theorem webTimerDevice_sameFences {pick : Picks} {projectId : Option Nat} {s' : WebStore} {device : Device}
    (h : s.webTimerDevice pick userId projectId = .ok (s', device)) : SameFences s s' := by
  unfold WebStore.webTimerDevice at h
  split at h
  · cases h
    exact .rfl'
  · exact insertDevice_sameFences h

theorem fenceAction_sameFences {s0 : WebStore} (h : SameFences s0 s) (pick : Picks) (now : Int)
    (user : User) (device : Device) (active : Option WorkSession) (eventType : LocationEventType)
    (fence : Geofence) :
    SameFences s0 (s.fenceAction pick now user device active eventType fence).1 := by
  unfold WebStore.fenceAction
  split
  · split
    · exact sync_sameFences h pick now _ _
    · exact h
  · split
    · exact sync_sameFences h pick now _ _
    · exact h
  · exact h

theorem startWebTimer_sameFences (pick : Picks) (now : Int) (projectId : Nat) (taskId : Option Nat) :
    SameFences s (startWebTimer pick now s userId projectId taskId).1 := by
  unfold startWebTimer
  split
  · exact .rfl'
  split
  · exact .rfl'
  split
  · exact .rfl'
  split
  · exact .rfl'
  · rename_i hdevice
    exact sync_sameFences (webTimerDevice_sameFences hdevice) pick now _ _

theorem stopWebTimer_sameFences (pick : Picks) (now : Int) :
    SameFences s (stopWebTimer pick now s userId).1 := by
  unfold stopWebTimer
  split
  · exact .rfl'
  split
  · exact .rfl'
  split
  · exact .rfl'
  split
  · exact .rfl'
  · rename_i db _
    have hsame : SameFences s { s with db } := ⟨rfl, rfl⟩
    exact sync_sameFences hsame pick now _ _

theorem changeWebTimer_sameFences (pick : Picks) (now : Int) (change : TimerChange) :
    SameFences s (changeWebTimer pick now s userId change).1 := by
  unfold changeWebTimer
  split
  · exact .rfl'
  split
  · exact .rfl'
  split
  · exact .rfl'
  split
  · exact .rfl'
  split
  · exact .rfl'
  · rename_i db _
    have hsame : SameFences s { s with db } := ⟨rfl, rfl⟩
    exact sync_sameFences hsame pick now _ _

theorem fieldTimerEvent_sameFences (pick : Picks) (now : Int) (payload : FieldTimerEvent) :
    SameFences s (fieldTimerEvent pick now s userId payload).1 := by
  unfold fieldTimerEvent
  split
  · exact .rfl'
  split
  · exact .rfl'
  split
  · exact .rfl'
  dsimp only
  split
  · exact .rfl'
  · rename_i hdevice
    exact sync_sameFences (webTimerDevice_sameFences hdevice) pick now _ _

/-- The operations that may store a location. -/
def WebOp.IsLocation : WebOp → Prop
  | .request _ _ _ (.location _) => True
  | _ => False

/-- Only a location changes the stored locations, and fences are only added. -/
theorem step_locations {op : WebOp} (hop : ¬ op.IsLocation) :
    (s.step op).locationEvents = s.locationEvents ∧ ∃ more, (s.step op).geofences = s.geofences ++ more := by
  have hsame : ∀ {s' : WebStore}, SameFences s s' →
      s'.locationEvents = s.locationEvents ∧ ∃ more, s'.geofences = s.geofences ++ more :=
    fun h => ⟨h.locations, [], by rw [h.fences, List.append_nil]⟩
  cases op with
  | work op => exact hsame ⟨rfl, rfl⟩
  | importTasks tasks => exact hsame ⟨rfl, rfl⟩
  | createDevice trackerKind ownerUserId projectId =>
    refine hsame ?_
    unfold WebStore.step
    dsimp only
    split
    · rename_i hinsert
      exact insertDevice_sameFences hinsert
    · exact .rfl'
  | touchDevice deviceId platform =>
    refine hsame ?_
    show SameFences s (s.touchDevice deviceId platform)
    unfold WebStore.touchDevice
    split
    · exact .rfl'
    · exact ⟨rfl, rfl⟩
  | createGeofence fence => exact ⟨rfl, _, rfl⟩
  | request pick now member request =>
    refine hsame ?_
    cases request with
    | start projectId taskId => exact startWebTimer_sameFences pick now projectId taskId
    | stop => exact stopWebTimer_sameFences pick now
    | change action => exact changeWebTimer_sameFences pick now action
    | field payload => exact fieldTimerEvent_sameFences pick now payload
    | location point => exact absurd trivial hop

end

/-! ## The invariant -/

/-- The stored locations of the user are the trail of the samples, which takes no direct step; their ids
are those of their samples, and the fences they name exist. -/
structure Tracked (userId : Nat) (idOf : Int → Nat) (h : FenceHistory) : Prop where
  store : StoreInvariant h.store.db
  ids : ∀ event ∈ h.store.locationsOf userId, event.id = idOf event.recordedAt
  fences : ∀ event ∈ h.store.locationEvents, ∀ fence, event.geofenceId = some fence →
    ∃ g ∈ h.store.geofences, g.id = fence
  sorted : ∃ samples, samples.Pairwise (fun x y => x.1 < y.1) ∧ h.samples.Perm samples ∧
    ((h.store.locationsOf userId).map LocationEvent.reading).Perm (trail none samples) ∧
    Steady none samples
  acts : h.missed = []

section

variable {userId : Nat} {idOf : Int → Nat} {h : FenceHistory}

/-- The trail of samples in order is in order. -/
theorem pairwise_trail {start : Option Nat} {samples : List (Int × Option Nat)}
    (hsorted : samples.Pairwise fun x y => x.1 < y.1) :
    (trail start samples).Pairwise fun x y => x.1 < y.1 := by
  have htimes : ((trail start samples).map (·.1)).Pairwise (· < ·) := by
    rw [Library.trail_times]
    exact List.pairwise_map.mpr hsorted
  exact List.pairwise_map.mp htimes

/-- The fence of the latest location is the place of the last sample. -/
theorem previous_eq_final {samples : List (Int × Option Nat)}
    (hfences : ∀ event ∈ h.store.locationEvents, ∀ fence, event.geofenceId = some fence →
      ∃ g ∈ h.store.geofences, g.id = fence)
    (hsorted : samples.Pairwise fun x y => x.1 < y.1)
    (hperm : ((h.store.locationsOf userId).map LocationEvent.reading).Perm (trail none samples))
    (pick : Picks) (inside : Geofence → Bool) :
    (h.store.geofenceState pick userId inside).2.map (·.id) = final none samples := by
  have hlast : (latestBy (·.recordedAt) pick.location (h.store.locationsOf userId)).map
      LocationEvent.reading = (trail none samples).getLast? :=
    Library.latestBy_map_of_sorted (fun reading : Int × Move Nat => reading.1) (fun _ => rfl) hperm
      (pairwise_trail hsorted) pick.location
  have hplace : (latestBy (·.recordedAt) pick.location (h.store.locationsOf userId)).bind
      (fun event => event.move.after) = final none samples := by
    have hafter := congrArg (Option.map fun step : Int × Move Nat => (step.1, step.2.after)) hlast
    rw [Library.trail_getLast?] at hafter
    unfold final
    rw [← hafter]
    cases latestBy (·.recordedAt) pick.location (h.store.locationsOf userId) with
    | none => rfl
    | some event =>
      show event.move.after = (some event.move.after).getD none
      rfl
  rw [← hplace]
  unfold WebStore.geofenceState
  show (Option.bind (latestBy (·.recordedAt) pick.location (h.store.locationsOf userId)) _).map _ = _
  cases hlatest : latestBy (·.recordedAt) pick.location (h.store.locationsOf userId) with
  | none => rfl
  | some event =>
    have hmem : event ∈ h.store.locationEvents := List.mem_of_mem_filter (Library.latestBy_mem hlatest)
    show (if event.eventType = .exit then none else _).map _ = event.move.after
    unfold LocationEvent.move
    cases hplaced : event.geofenceId with
    | none => cases event.eventType <;> rfl
    | some fence =>
      obtain ⟨g, hg, hgid⟩ := hfences event hmem fence hplaced
      have hfound : ((h.store.geofences.find? (·.id == fence)).map (·.id)) = some fence := by
        cases hfind : h.store.geofences.find? (·.id == fence) with
        | none =>
          have hnone := List.find?_eq_none.mp hfind g hg
          simp [hgid] at hnone
        | some found => simpa using List.find?_some hfind
      cases event.eventType with
      | position => exact hfound
      | enter => exact hfound
      | exit => rfl

/-- The samples in order, cut at an instant that none of them has. -/
theorem samples_split {samples : List (Int × Option Nat)} (hsorted : samples.Pairwise fun x y => x.1 < y.1)
    {instant : Int} (hnew : ∀ sample ∈ samples, sample.1 ≠ instant) :
    ∃ before after, samples = before ++ after ∧ (∀ sample ∈ before, sample.1 < instant) ∧
      ∀ sample ∈ after, instant < sample.1 := by
  induction samples with
  | nil => exact ⟨[], [], rfl, by simp, by simp⟩
  | cons x rest ih =>
    obtain ⟨hx, hrest⟩ := List.pairwise_cons.mp hsorted
    have hne : x.1 ≠ instant := hnew x List.mem_cons_self
    by_cases hlt : x.1 < instant
    · obtain ⟨before, after, rfl, hbefore, hafter⟩ :=
        ih hrest fun sample hmem => hnew sample (List.mem_cons_of_mem x hmem)
      refine ⟨x :: before, after, rfl, ?_, hafter⟩
      intro sample hmem
      rcases List.mem_cons.mp hmem with rfl | hold
      · exact hlt
      · exact hbefore sample hold
    · refine ⟨[], x :: rest, rfl, by simp, ?_⟩
      intro sample hmem
      rcases List.mem_cons.mp hmem with rfl | hold
      · omega
      · have := hx sample hold
        omega

/-- The place before an instant, read off the samples in order. -/
theorem placeBefore_eq_final {before after : List (Int × Option Nat)} {instant : Int}
    (hsorted : (before ++ after).Pairwise fun x y => x.1 < y.1) (hperm : h.samples.Perm (before ++ after))
    (hbefore : ∀ sample ∈ before, sample.1 < instant) (hafter : ∀ sample ∈ after, instant < sample.1) :
    h.placeBefore instant = final none before := by
  have hfilter : (before ++ after).filter (·.1 < instant) = before := by
    rw [List.filter_append, List.filter_eq_self.mpr fun x hx => decide_eq_true (hbefore x hx),
      List.filter_eq_nil_iff.mpr ?_, List.append_nil]
    intro x hx
    have := hafter x hx
    rw [decide_eq_true_eq]
    omega
  have hkept : ((h.samples.filter (·.1 < instant)).map id).Perm before := by
    rw [List.map_id]
    exact hfilter ▸ hperm.filter _
  have hlast := Library.latestBy_map_of_sorted (fun sample : Int × Option Nat => sample.1)
    (fun _ => rfl) hkept (List.pairwise_append.mp hsorted).1 fun _ => 0
  unfold FenceHistory.placeBefore final
  rw [Option.map_id] at hlast
  show Option.bind (latestBy _ _ _) _ = _
  rw [show latestBy (fun sample : Int × Option Nat => sample.1) (fun _ => 0)
    (h.samples.filter (·.1 < instant)) = before.getLast? from hlast]
  cases before.getLast? <;> rfl

/-- A new sample: later than the others and not direct, or a late one that repeats the place of the last
sample and of the one before it. -/
theorem insert_sample {samples : List (Int × Option Nat)}
    (hsorted : samples.Pairwise fun x y => x.1 < y.1) (hsteady : Steady none samples)
    {instant : Int} (current : Option Nat) (hnew : ∀ sample ∈ samples, sample.1 ≠ instant)
    (hlatest : (∀ sample ∈ samples, sample.1 < instant) → ¬ Direct (final none samples) current)
    (hlate : ¬ (∀ sample ∈ samples, sample.1 < instant) → current = final none samples ∧
      ∀ before after, samples = before ++ after → (∀ sample ∈ before, sample.1 < instant) →
        (∀ sample ∈ after, instant < sample.1) → current = final none before) :
    ∃ samples', samples'.Pairwise (fun x y => x.1 < y.1) ∧ samples'.Perm ((instant, current) :: samples) ∧
      (trail none samples').Perm ((instant, Move.between (final none samples) current) :: trail none samples) ∧
      Steady none samples' := by
  by_cases hlast : ∀ sample ∈ samples, sample.1 < instant
  · refine ⟨samples ++ [(instant, current)], ?_, List.perm_append_singleton _ _, ?_, ?_⟩
    · refine List.pairwise_append.mpr ⟨hsorted, List.pairwise_singleton _ _, ?_⟩
      intro x hx y hy
      rw [List.mem_singleton.mp hy]
      exact hlast x hx
    · rw [Library.trail_append]
      exact List.perm_append_singleton _ _
    · exact Library.steady_append.mpr ⟨hsteady, hlatest hlast, trivial⟩
  · obtain ⟨before, after, rfl, hbefore, hafter⟩ := samples_split hsorted hnew
    obtain ⟨hfinal, hplace⟩ := hlate hlast
    have hrepeats : current = final none before := hplace before after rfl hbefore hafter
    obtain ⟨hsortedBefore, hsortedAfter, hcross⟩ := List.pairwise_append.mp hsorted
    refine ⟨before ++ (instant, current) :: after, ?_, List.perm_middle, ?_, ?_⟩
    · refine List.pairwise_append.mpr ⟨hsortedBefore, List.pairwise_cons.mpr ⟨hafter, hsortedAfter⟩, ?_⟩
      intro x hx y hy
      rcases List.mem_cons.mp hy with rfl | hold
      · exact hbefore x hx
      · exact hcross x hx y hold
    · rw [← hfinal, Library.Move.between_self, hrepeats, Library.trail_repeat, Library.trail_append]
      exact List.perm_middle
    · rw [hrepeats]
      exact Library.steady_repeat hsteady instant

/-- What keeps the locations of the user, and the fences, keeps the invariant. -/
theorem Tracked.of_same (ht : Tracked userId idOf h) {store : WebStore} (hstore : StoreInvariant store.db)
    (hown : store.locationsOf userId = h.store.locationsOf userId)
    (hfences : ∀ event ∈ store.locationEvents, ∀ fence, event.geofenceId = some fence →
      ∃ g ∈ store.geofences, g.id = fence) : Tracked userId idOf { h with store } where
  store := hstore
  ids := by
    intro event hevent
    rw [hown] at hevent
    exact ht.ids event hevent
  fences := hfences
  sorted := by
    obtain ⟨samples, hsorted, hperm, htrail, hsteady⟩ := ht.sorted
    exact ⟨samples, hsorted, hperm, hown ▸ htrail, hsteady⟩
  acts := ht.acts

/-- An exit that finds its timer leaves no timer running. -/
theorem fenceAction_stops {s : WebStore} (hs : StoreInvariant s.db) (pick : Picks) (now : Int) (user : User)
    {device : Device} (hdevice : (s.db.getDevice device.id).isSome) {ws : WorkSession}
    (hws : ws ∈ s.db.workSessions) (huser : ws.userId = some userId) (hlive : ws.live)
    (hid : device.id = ws.deviceId) (hfits : TaskFits s.db (timerCall device .stopped ws.taskId ws.projectId false))
    {fence : Geofence} (hstop : fence.exitAction = .stop) :
    (s.fenceAction pick now user device (some ws) .exit fence).1.activeTimer userId = none := by
  unfold WebStore.fenceAction
  dsimp only
  rw [if_pos hstop]
  have hnone : NoLiveSession (s.sync pick now (timerCall device .stopped ws.taskId ws.projectId false)
      .failed).1.db userId := by
    have houtcome := timerStop_outcome hs pick now hdevice ws.taskId ws.projectId .failed
    generalize s.sync pick now (timerCall device .stopped ws.taskId ws.projectId false) .failed = result
      at houtcome
    cases houtcome with
    | refused detail hdetail hnotFits => exact absurd hfits hnotFits
    | duplicate hduplicate => cases hduplicate
    | unrecorded hnew hfits hproject hevent => cases hevent
    | stopped hnew hfits hproject db hbreaks hsessions =>
      exact (noLiveSession_iff hs hws huser hlive hsessions).mpr hid
  refine Library.latestBy_filter_eq_none.mpr fun row hrow => ?_
  by_cases hrowUser : row.userId = some userId
  · rw [hnone row hrow hrowUser, Bool.and_false]
  · rw [beq_eq_false_iff_ne.mpr hrowUser]
    rfl

/-- A location is about the fence around it, or else about the previous one. -/
theorem crossing_fence (current previous : Option Geofence) :
    (crossing current previous).2 = current.or previous := by
  cases current with
  | none => cases previous <;> rfl
  | some current => cases previous <;> rfl

/-- The fence that a location is about exists. -/
theorem crossing_mem {s : WebStore} {pick : Picks} {inside : Geofence → Bool} {fence : Geofence}
    (hfence : (crossing (s.geofenceState pick userId inside).1 (s.geofenceState pick userId inside).2).2 =
      some fence) : fence ∈ s.geofences := by
  have hcurrent : ∀ g, (s.geofenceState pick userId inside).1 = some g → g ∈ s.geofences :=
    fun g hg => List.mem_of_mem_filter (Library.latestBy_mem hg)
  have hprevious : ∀ g, (s.geofenceState pick userId inside).2 = some g → g ∈ s.geofences := by
    intro g hg
    obtain ⟨latest, _, hg⟩ := Option.bind_eq_some_iff.mp hg
    split at hg
    · cases hg
    · obtain ⟨fenceId, _, hg⟩ := Option.bind_eq_some_iff.mp hg
      exact List.mem_of_find?_eq_some hg
  rw [crossing_fence] at hfence
  rcases Option.or_eq_some_iff.mp hfence with hcurrentFence | ⟨_, hpreviousFence⟩
  · exact hcurrent fence hcurrentFence
  · exact hprevious fence hpreviousFence

/-- A stored location that asks for a stop leaves no timer running, if the exit finds the timer. -/
theorem exit_acts {s : WebStore} (hs : StoreInvariant s.db) {pick : Picks} {now : Int}
    {point : LocationPoint} (hacts : ExitActs pick s userId point)
    (hasks : (WebOp.request pick now userId (.location point)).asksStop userId s = true)
    (user : User) (devices : List Device) (platform : Nat → String) {device : Device}
    (event : LocationEvent) (hdevice : ({ s.db with devices }.getDevice device.id).isSome)
    (hown : ∀ own, s.ownWebTimer pick userId = some own → device = own) :
    ((crossing (s.geofenceState pick userId point.inside).1
        (s.geofenceState pick userId point.inside).2).2.elim
      (s.storing devices platform event, TimerAnswer.accepted)
      ((s.storing devices platform event).fenceAction pick now user device (s.activeTimer userId)
        (crossing (s.geofenceState pick userId point.inside).1
          (s.geofenceState pick userId point.inside).2).1)).1.activeTimer userId = none := by
  obtain ⟨hexit, hactive⟩ := Bool.and_eq_true_iff.mp hasks
  obtain ⟨ws, hws⟩ := Option.isSome_iff_exists.mp hactive
  obtain ⟨own, hownTimer, hid, hfits⟩ := hacts ws hexit hws
  obtain ⟨fence, hfence⟩ := Option.isSome_iff_exists.mp hexit
  obtain ⟨hcross, hstop⟩ := exitFence_some hfence
  obtain ⟨hmem, hsel⟩ := List.mem_filter.mp (Library.latestBy_mem hws)
  rw [Bool.and_eq_true, Bool.and_eq_true, beq_iff_eq] at hsel
  have hsame := hown own hownTimer
  subst hsame
  rw [hcross, hws]
  exact fenceAction_stops (s := s.storing devices platform event) (hs.of_eq rfl rfl le_rfl) pick now user hdevice hmem hsel.1.1 hsel.2 hid hfits hstop

/-- A location that the user stores. -/
theorem Tracked.store_location (ht : Tracked userId idOf h) {store : WebStore}
    (hstore : StoreInvariant store.db) {event : LocationEvent} {pick : Picks} {point : LocationPoint}
    (hlocations : store.locationEvents = h.store.locationEvents ++ [event])
    (hgeofences : store.geofences = h.store.geofences) (huser : event.userId = some userId)
    (hid : event.id = idOf event.recordedAt) (hnew : ∀ old ∈ h.store.locationEvents, old.id ≠ event.id)
    (htype : event.eventType = (crossing (h.store.geofenceState pick userId point.inside).1
      (h.store.geofenceState pick userId point.inside).2).1)
    (hfence : event.geofenceId = (crossing (h.store.geofenceState pick userId point.inside).1
      (h.store.geofenceState pick userId point.inside).2).2.map (·.id))
    (hplace : if ∀ sample ∈ h.samples, sample.1 < event.recordedAt then
        ¬ Direct ((h.store.geofenceState pick userId point.inside).2.map (·.id))
          ((h.store.geofenceState pick userId point.inside).1.map (·.id))
      else (h.store.geofenceState pick userId point.inside).1.map (·.id) =
          (h.store.geofenceState pick userId point.inside).2.map (·.id) ∧
        (h.store.geofenceState pick userId point.inside).1.map (·.id) = h.placeBefore event.recordedAt) :
    Tracked userId idOf
      { store
        samples := h.samples ++ [(event.recordedAt,
          (h.store.geofenceState pick userId point.inside).1.map (·.id))]
        missed := h.missed } := by
  obtain ⟨samples, hsorted, hperm, htrail, hsteady⟩ := ht.sorted
  have hfinal := previous_eq_final ht.fences hsorted htrail pick point.inside
  have hmove := crossing_move _ _ event htype hfence
  rw [hfinal] at hmove hplace
  have hown : store.locationsOf userId = h.store.locationsOf userId ++ [event] := by
    unfold WebStore.locationsOf
    rw [hlocations, List.filter_append, List.filter_singleton, huser]
    simp
  have hunseen : ∀ sample ∈ samples, sample.1 ≠ event.recordedAt := by
    intro sample hmem heq
    have htime : sample.1 ∈ (trail none samples).map (·.1) := by
      rw [Library.trail_times]
      exact List.mem_map_of_mem hmem
    obtain ⟨reading, hreading, hsame⟩ := List.mem_map.mp htime
    obtain ⟨old, hold, rfl⟩ := List.mem_map.mp (htrail.mem_iff.mpr hreading)
    refine hnew old (List.mem_of_mem_filter hold) ?_
    rw [hid, ht.ids old hold, ← heq, ← hsame]
    rfl
  have hall : (∀ sample ∈ h.samples, sample.1 < event.recordedAt) ↔
      ∀ sample ∈ samples, sample.1 < event.recordedAt :=
    ⟨fun hlt sample hmem => hlt sample (hperm.mem_iff.mpr hmem),
      fun hlt sample hmem => hlt sample (hperm.mem_iff.mp hmem)⟩
  obtain ⟨samples', hsorted', hperm', htrail', hsteady'⟩ := insert_sample hsorted hsteady
    ((h.store.geofenceState pick userId point.inside).1.map (·.id)) hunseen
    (fun hlast => by rwa [if_pos (hall.mpr hlast)] at hplace)
    (fun hlate => by
      rw [if_neg fun hlast => hlate (hall.mp hlast)] at hplace
      refine ⟨hplace.1, fun before after hcut hbefore hafter => ?_⟩
      subst hcut
      rw [hplace.2]
      exact placeBefore_eq_final hsorted hperm hbefore hafter)
  refine ⟨hstore, ?_, ?_, ⟨samples', hsorted', ?_, ?_, hsteady'⟩, ht.acts⟩
  · intro old hold
    rw [hown] at hold
    rcases List.mem_append.mp hold with hold | hlast
    · exact ht.ids old hold
    · rw [List.mem_singleton.mp hlast]
      exact hid
  · intro old hold fence hplaced
    rw [hlocations] at hold
    rw [hgeofences]
    rcases List.mem_append.mp hold with hold | hlast
    · exact ht.fences old hold fence hplaced
    · rw [List.mem_singleton.mp hlast, hfence] at hplaced
      obtain ⟨g, hg, hgid⟩ := Option.map_eq_some_iff.mp hplaced
      exact ⟨g, crossing_mem hg, hgid⟩
  · exact (List.perm_append_singleton _ _).trans ((hperm.cons _).trans hperm'.symm)
  · rw [hown, List.map_append, List.map_singleton]
    have hreading : event.reading = (event.recordedAt, Move.between (final none samples)
        ((h.store.geofenceState pick userId point.inside).1.map (·.id))) := by
      unfold LocationEvent.reading
      rw [hmove]
    rw [hreading]
    exact (List.perm_append_singleton _ _).trans ((htrail.cons _).trans htrail'.symm)

/-- A location, of the user or of another member. -/
theorem Tracked.location (ht : Tracked userId idOf h) {pick : Picks} {now : Int} {member : Nat}
    {point : LocationPoint}
    (hid : (WebOp.request pick now member (.location point)).Identified userId idOf)
    (hg : Orderly userId h (.request pick now member (.location point))) :
    Tracked userId idOf (h.step userId (.request pick now member (.location point))) := by
  have hstore := fieldLocation_db pick now member point ht.store
  have houtcome := fieldLocation_outcome pick now h.store member point
  have hstep : h.store.step (.request pick now member (.location point)) =
    (fieldLocation pick now h.store member point).1 := rfl
  unfold FenceHistory.step
  dsimp only
  rw [hstep]
  generalize fieldLocation pick now h.store member point = result at hstore houtcome
  cases houtcome with
  | ignored devices platform answer =>
    rw [if_neg (lt_irrefl _)]
    exact ht.of_same hstore rfl ht.fences
  | stored user devices platform device event henters hinstant huser heventId hnew htype hfence hdevice hown =>
    generalize hended : Option.elim _ _ _ = ended at hstore
    have hsame : SameFences (h.store.storing devices platform event) ended.1 := by
      rw [← hended]
      cases (crossing (h.store.geofenceState pick member point.inside).1
        (h.store.geofenceState pick member point.inside).2).2 with
      | none => exact .rfl'
      | some fence => exact fenceAction_sameFences .rfl' pick now user device _ _ fence
    have hlocations : ended.1.locationEvents = h.store.locationEvents ++ [event] := hsame.locations
    have hgeofences : ended.1.geofences = h.store.geofences := hsame.fences
    rw [hlocations, List.length_append, if_pos (by simp)]
    by_cases hmember : member = userId
    · subst hmember
      obtain ⟨hplace, hacts⟩ := hg rfl henters fun old hold => heventId ▸ hnew old hold
      have hsample : (WebOp.request pick now member (.location point)).sample member h.store =
          some (event.recordedAt, (h.store.geofenceState pick member point.inside).1.map (·.id)) := by
        unfold WebOp.sample
        dsimp only
        rw [if_pos rfl, hinstant]
        rfl
      rw [hsample]
      dsimp only
      rw [if_neg ?_]
      · exact ht.store_location hstore hlocations hgeofences huser
          (heventId ▸ hid rfl event.recordedAt hinstant) hnew htype hfence
          (hplace event.recordedAt hinstant)
      · intro hmissed
        obtain ⟨hasks, hrunning⟩ := Bool.and_eq_true_iff.mp hmissed
        rw [← hended, exit_acts ht.store hacts hasks user devices platform _ hdevice hown] at hrunning
        cases hrunning
    · have hnone : (WebOp.request pick now member (.location point)).sample userId h.store = none :=
        if_neg hmember
      rw [hnone]
      refine ht.of_same hstore ?_ ?_
      · unfold WebStore.locationsOf
        rw [hlocations, List.filter_append, List.filter_singleton, huser, beq_eq_false_iff_ne.mpr
          fun heq => hmember (Option.some.inj heq)]
        exact List.append_nil _
      · intro old hold fence hplaced
        rw [hlocations] at hold
        rw [hgeofences]
        rcases List.mem_append.mp hold with hold | hlast
        · exact ht.fences old hold fence hplaced
        · rw [List.mem_singleton.mp hlast, hfence] at hplaced
          obtain ⟨g, hg, hgid⟩ := Option.map_eq_some_iff.mp hplaced
          exact ⟨g, crossing_mem hg, hgid⟩

/-- **One step** that meets the condition keeps the invariant. -/
theorem Tracked.step (ht : Tracked userId idOf h) {op : WebOp} (hid : op.Identified userId idOf)
    (hg : Orderly userId h op) : Tracked userId idOf (h.step userId op) := by
  have hstore : StoreInvariant (h.store.step op).db := WebStore.step_db op ht.store
  by_cases hop : op.IsLocation
  swap
  · obtain ⟨hsame, more, hmore⟩ := step_locations (s := h.store) hop
    have hstep : h.step userId op = { h with store := h.store.step op } := by
      unfold FenceHistory.step
      rw [if_neg (by rw [hsame]; exact lt_irrefl _)]
    rw [hstep]
    refine ht.of_same hstore ?_ ?_
    · unfold WebStore.locationsOf
      rw [hsame]
    · intro event hevent fence hfence
      rw [hsame] at hevent
      obtain ⟨g, hmem, hgid⟩ := ht.fences event hevent fence hfence
      exact ⟨g, hmore ▸ List.mem_append_left more hmem, hgid⟩
  · cases op with
    | request pick now member request =>
      cases request with
      | location point => exact ht.location hid hg
      | _ => exact hop.elim
    | _ => exact hop.elim

end

/-! ## Every run -/

section

variable {userId : Nat} {idOf : Int → Nat} {h : FenceHistory}

theorem tracked_start (db : Database) : Tracked userId idOf (FenceHistory.start db) where
  store := storeInvariant_withoutWork db
  ids := by
    intro event hevent
    cases hevent
  fences := by
    intro event hevent
    cases hevent
  sorted := ⟨[], List.Pairwise.nil, List.Perm.nil, List.Perm.nil, trivial⟩
  acts := rfl

/-- Another upload of a stored sample adds at most a device. -/
theorem Tracked.retry (ht : Tracked userId idOf h) (pick : Picks) (now : Int) {point : LocationPoint}
    {event : LocationEvent} (hevent : event ∈ h.store.locationsOf userId)
    (hid : point.eventId = idOf event.recordedAt) :
    ∃ devices platform, (fieldLocation pick now h.store userId point).1 =
      { h.store with db := { h.store.db with devices }, platform } := by
  have houtcome := fieldLocation_outcome pick now h.store userId point
  generalize fieldLocation pick now h.store userId point = result at houtcome
  cases houtcome with
  | ignored devices platform answer => exact ⟨devices, platform, rfl⟩
  | stored user devices platform device stored _ _ _ hsame hnew =>
    -- the id of the sample is taken
    refine absurd ?_ (hnew event (List.mem_of_mem_filter hevent))
    rw [ht.ids event hevent, hsame, hid]

theorem Tracked.locationsConsistent (ht : Tracked userId idOf h) : LocationsConsistent userId idOf h := by
  obtain ⟨samples, hsorted, hperm, htrail, hsteady⟩ := ht.sorted
  have hreadings : h.store.readings userId = trail none samples :=
    Library.orderBy_map_of_sorted (fun reading : Int × Move Nat => reading.1) (fun _ => rfl) htrail
      (pairwise_trail hsorted) fun _ => 0
  have horder : h.inOrder = samples := by
    have hid : h.inOrder.map id = samples :=
      Library.orderBy_map_of_sorted (fun sample : Int × Option Nat => sample.1) (fun _ => rfl)
        (by rwa [List.map_id]) hsorted fun _ => 0
    rwa [List.map_id] at hid
  refine ⟨by rw [hreadings, horder], fun fence => ?_, ?_, ht.acts, ?_⟩
  · rw [hreadings]
    exact Library.alternate_trail hsteady fence
  · intro before instant after rest fence hcut hbefore hafter
    rw [hreadings]
    rw [horder] at hcut
    subst hcut
    exact Library.leave_mem_trail hsteady hbefore hafter
  · intro pick now point event hevent _ hid
    exact ht.retry pick now hevent hid

/-- **The stored locations of a member are consistent** in every run whose uploads meet the condition. -/
theorem locations_consistent (db : Database) (userId : Nat) (idOf : Int → Nat) (ops : List WebOp)
    (hids : ∀ op ∈ ops, op.Identified userId idOf)
    (hg : Guarded (FenceHistory.step userId) (Orderly userId) (FenceHistory.start db) ops) :
    LocationsConsistent userId idOf (run (FenceHistory.step userId) (FenceHistory.start db) ops) :=
  (guarded_invariant (Tracked userId idOf) (fun _ _ ht hop => ht.step hop.1 hop.2) (tracked_start db)
    (hg.and_of_forall hids)).locationsConsistent

end

/-- A fence of the office. -/
def yard (exitAction : ExitAction) : Geofence where
  id := 0
  projectId := some 1
  radiusMeters := 100
  active := true
  enterAction := .none
  exitAction := exitAction

/-- A sample of the member of the office, inside the fences of some ids. -/
def sampled (minute : Nat) (inside : List Nat) : WebOp :=
  .request {} (minutes 620) 1 (.location
    { eventId := minute
      recordedAt := Datetime.ofInstant (minutes minute)
      inside := fun fence => inside.contains fence.id })

/-- The member starts the timer, is inside the yard for three samples, of which the second comes last, and
leaves. -/
def yardVisit : List WebOp :=
  [.createGeofence (yard .stop), .request {} (minutes 600) 1 (.start 1 none),
    sampled 601 [0], sampled 603 [0], sampled 602 [0], sampled 604 []]

theorem locations_consistent_visit :
    LocationsConsistent 1 (fun instant => (instant / minutes 1).toNat)
      (run (FenceHistory.step 1) (FenceHistory.start office) yardVisit) := by
  refine locations_consistent office 1 _ yardVisit ?_ ⟨trivial, trivial, ?_, ?_, ?_, ?_, trivial⟩
  · intro op hop
    simp only [yardVisit, List.mem_cons, List.not_mem_nil, or_false] at hop
    rcases hop with rfl | rfl | rfl | rfl | rfl | rfl
    · trivial
    · trivial
    all_goals
      intro _ instant hinstant
      cases hinstant
      decide +kernel
  · intro _ _ _
    refine ⟨fun instant hinstant => ?_, fun ws hexit => absurd hexit (by decide +kernel)⟩
    cases hinstant
    decide +kernel
  · intro _ _ _
    refine ⟨fun instant hinstant => ?_, fun ws hexit => absurd hexit (by decide +kernel)⟩
    cases hinstant
    decide +kernel
  · intro _ _ _
    refine ⟨fun instant hinstant => ?_, fun ws hexit => absurd hexit (by decide +kernel)⟩
    cases hinstant
    decide +kernel
  · intro _ _ _
    refine ⟨fun instant hinstant => ?_, fun ws _ hactive => ?_⟩
    · cases hinstant
      decide +kernel
    · have hrunning := congrArg (Option.map fun ws : WorkSession => (ws.deviceId, ws.taskId)) hactive
      have hkey : (ws.deviceId, ws.taskId) = (3, none) :=
        Option.some.inj (hrunning.symm.trans (by decide +kernel))
      obtain ⟨hdevice, htask⟩ := Prod.mk.inj hkey
      rw [hdevice, htask]
      refine ⟨{ laptop with id := 3, trackerKind := .web }, by decide +kernel, rfl, ?_⟩
      intro taskId hnone
      cases hnone

/-- Straight from one fence into another: the first one is never left. -/
theorem locations_direct_move :
    ¬ ∀ (db : Database) (userId : Nat) (idOf : Int → Nat) (ops : List WebOp),
      (∀ op ∈ ops, op.Identified userId idOf) →
      LocationsConsistent userId idOf (run (FenceHistory.step userId) (FenceHistory.start db) ops) := by
  intro h
  have hconsistent := h office 1 (fun instant => (instant / minutes 1).toNat)
    [.createGeofence (yard .none), .createGeofence (yard .none), sampled 601 [0], sampled 602 [1]] (by
      intro op hop
      simp only [List.mem_cons, List.not_mem_nil, or_false] at hop
      rcases hop with rfl | rfl | rfl | rfl
      · trivial
      · trivial
      all_goals
        intro _ instant hinstant
        cases hinstant
        decide +kernel)
  have hleft := hconsistent.leaves [(minutes 601, some 0)] (minutes 602) (some 1) [] 0
    (by decide +kernel) rfl (by decide)
  exact absurd hleft (by decide +kernel)

end Dayfinch
