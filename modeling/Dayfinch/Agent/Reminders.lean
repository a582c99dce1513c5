/-
# Dayfinch.Agent.Reminders -- the tracking reminders of the desktop agent

An employee may ask to be reminded of a timer that is not running. The settings name the days and the times
of a window; a poll delivers a reminder while the timer is stopped inside a window, unless the last reminder,
or the last stop inside a window, is younger than the interval. That moment outlives the process.

`ReminderSettings.Open` says when a window is open without the code's two candidate dates, and `ReminderLog`
keeps what happened beside the agent. The journal works throughout, and its texts stand for the settings and
the instant they are made of. A function named with `?` answers `none` for an `OverflowError`: a date or a
datetime that Python does not have.
-/
import Dayfinch.Agent.FixedSchedule
import Dayfinch.Library.Run
import Dayfinch.Schema

namespace Dayfinch

open Library (run run_invariant)

/-! ## Settings -/

/-- `DAYS`. -/
def reminderDays : List String := ["mon", "tue", "wed", "thu", "fri", "sat", "sun"]

/-- A field of a JSON object: it may be absent, or of another type than the code asks for. -/
inductive JsonField (α : Type)
  | absent
  | wrong
  | value (v : α)
  deriving DecidableEq, Repr

/-- `value.get(name, default)`, if it has the type the code asks for. -/
def JsonField.get {α : Type} (default : α) : JsonField α → Option α
  | .absent => some default
  | .wrong => none
  | .value v => some v

/-- The object that the settings are read from. A day of another type than `str` is `none`. -/
structure ReminderMapping where
  enabled : JsonField Bool := .absent
  start : JsonField String := .absent
  stop : JsonField String := .absent
  days : JsonField (List (Option String)) := .absent
  intervalMinutes : JsonField Int := .absent
  mode : JsonField String := .absent
  deriving DecidableEq, Repr

/-- `ReminderSettings`. -/
structure ReminderSettings where
  enabled : Bool := false
  start : String := "09:00"
  stop : String := "17:00"
  days : List String := ["mon", "tue", "wed", "thu", "fri"]
  intervalMinutes : Int := 15
  mode : String := "notification"
  deriving DecidableEq, Repr

namespace ReminderSettings

/-- The checks of `from_mapping`, on fields of the right types. -/
structure Valid (settings : ReminderSettings) : Prop where
  start : (clock (some settings.start)).isSome
  stop : (clock (some settings.stop)).isSome
  differ : settings.start ≠ settings.stop
  someDay : settings.days ≠ []
  fewDays : settings.days.length ≤ reminderDays.length
  knownDays : ∀ day ∈ settings.days, day ∈ reminderDays
  uniqueDays : settings.days.Nodup
  interval : 5 ≤ settings.intervalMinutes ∧ settings.intervalMinutes ≤ 240
  mode : settings.mode = "notification" ∨ settings.mode = "alert"

instance (settings : ReminderSettings) : Decidable settings.Valid :=
  decidable_of_iff
    ((clock (some settings.start)).isSome ∧ (clock (some settings.stop)).isSome ∧
      settings.start ≠ settings.stop ∧ settings.days ≠ [] ∧ settings.days.length ≤ reminderDays.length ∧
      (∀ day ∈ settings.days, day ∈ reminderDays) ∧ settings.days.Nodup ∧
      (5 ≤ settings.intervalMinutes ∧ settings.intervalMinutes ≤ 240) ∧
      (settings.mode = "notification" ∨ settings.mode = "alert"))
    ⟨fun ⟨a, b, c, d, e, f, g, h, i⟩ => ⟨a, b, c, d, e, f, g, h, i⟩,
      fun h => ⟨h.start, h.stop, h.differ, h.someDay, h.fewDays, h.knownDays, h.uniqueDays, h.interval, h.mode⟩⟩

/-- The days of the week that are chosen, from Monday on. -/
def orderedDays (days : List String) : List String := reminderDays.filter (days.contains ·)

/-- The fields, if each has its type. -/
def ofFields (value : ReminderMapping) : Option ReminderSettings := do
  let enabled ← value.enabled.get false
  let start ← value.start.get "09:00"
  let stop ← value.stop.get "17:00"
  let listed ← value.days.get [some "mon", some "tue", some "wed", some "thu", some "fri"]
  let days ← listed.mapM id
  let intervalMinutes ← value.intervalMinutes.get 15
  let mode ← value.mode.get "notification"
  return { enabled, start, stop, days, intervalMinutes, mode }

/-- The message of a refusal. -/
def invalidSettings : String :=
  "Use valid start/end times, one or more unique days, a 5–240 " ++
    "minute interval, and notification or alert mode"

/-- `from_mapping`. -/
def fromMapping (strict : Bool) (value : Option ReminderMapping) : Except Error ReminderSettings :=
  match value with
  | none => if strict then .error (.valueError "Reminder settings must be an object") else .ok {}
  | some value =>
    match (ofFields value).filter (fun settings => decide settings.Valid) with
    | none => if strict then .error (.valueError invalidSettings) else .ok {}
    | some settings => .ok { settings with days := orderedDays settings.days }

/-- `as_dict`. -/
def asDict (settings : ReminderSettings) : ReminderMapping where
  enabled := .value settings.enabled
  start := .value settings.start
  stop := .value settings.stop
  days := .value (settings.days.map some)
  intervalMinutes := .value settings.intervalMinutes
  mode := .value settings.mode

/-! ## Windows -/

/-- The minute of the day that a window starts at. -/
def starts (settings : ReminderSettings) : Nat := (clock (some settings.start)).getD 0

/-- The minute of the day that it ends at. -/
def ends (settings : ReminderSettings) : Nat := (clock (some settings.stop)).getD 0

/-- The wall clock where the window of a working date starts. -/
def startsAt (settings : ReminderSettings) (d : Int) : Int := startOfDay d + minutes settings.starts

/-- The wall clock where it ends: on the next day unless its end is the later time. -/
def endsAt (settings : ReminderSettings) (d : Int) : Int :=
  startOfDay (if settings.ends ≤ settings.starts then d + 1 else d) + minutes settings.ends

/-- **The window of the date `d` is open** at a time of the wall clock. A start and an end that name the same
minute make no window. -/
structure Open (settings : ReminderSettings) (wall d : Int) : Prop where
  enabled : settings.enabled = true
  differ : settings.starts ≠ settings.ends
  chosen : dayName d ∈ settings.days
  begun : settings.startsAt d ≤ wall
  running : wall < settings.endsAt d

instance (settings : ReminderSettings) (wall d : Int) : Decidable (settings.Open wall d) :=
  decidable_of_iff
    (settings.enabled = true ∧ settings.starts ≠ settings.ends ∧ dayName d ∈ settings.days ∧
      settings.startsAt d ≤ wall ∧ wall < settings.endsAt d)
    ⟨fun ⟨a, b, c, d, e⟩ => ⟨a, b, c, d, e⟩, fun h => ⟨h.enabled, h.differ, h.chosen, h.begun, h.running⟩⟩

end ReminderSettings

/-- `ReminderWindow`. -/
structure ReminderWindow where
  key : String
  startsAt : Datetime
  endsAt : Datetime
  deriving DecidableEq, Repr

/-- The candidate that a working date makes, where the two times are known. -/
def reminderCandidate (settings : ReminderSettings) (wall : Int) (starts ends : Nat) (workingDate : Int) :
    Option (Int × Int × String) :=
  if dayName workingDate ∉ settings.days then none
  else
    let startsAt := startOfDay workingDate + minutes starts
    let endDate := if ends ≤ starts then workingDate + 1 else workingDate
    let endsAt := startOfDay endDate + minutes ends
    if startsAt ≤ wall ∧ wall < endsAt then
      some (startsAt, endsAt, dateText workingDate ++ ":" ++ settings.start ++ ":" ++ settings.stop)
    else none

/-- The dates that `active_reminder_window` computes: yesterday's, and the day after a chosen day whose window
ends on the next day. -/
def reminderOverflows (settings : ReminderSettings) (date : Int) (starts ends : Nat) : Bool :=
  !decide (InDateRange (date - 1)) ||
    ((settings.days.contains (dayName date) && decide (ends ≤ starts)) && !decide (InDateRange (date + 1)))

/-- `active_reminder_window`. -/
def activeReminderWindow? (settings : ReminderSettings) (moment : Datetime) :
    Option (Option ReminderWindow) :=
  if settings.enabled = false then some none
  else
    match clock (some settings.start), clock (some settings.stop) with
    | some starts, some ends =>
      if starts = ends then some none
      else if reminderOverflows settings moment.date starts ends then none
      else
        let offset := some (moment.utcoffset.getD 0)
        some ((earliest ([moment.date - 1, moment.date].filterMap
            (reminderCandidate settings moment.wall starts ends))).map
          fun found => { key := found.2.2, startsAt := ⟨found.1, offset⟩, endsAt := ⟨found.2.1, offset⟩ })
    | _, _ => some none

/-- `astimezone(UTC)`; a naive moment is taken to be in UTC. -/
def observed? (moment : Datetime) : Option Int :=
  if InDatetimeRange moment.toTimestamptz then some moment.toTimestamptz else none

/-- `reminder_is_due`. -/
def reminderIsDue? (settings : ReminderSettings) (moment : Datetime) (lastSentAt : Option Int) :
    Option (Option ReminderWindow) := do
  match ← activeReminderWindow? settings moment with
  | none => return none
  | some window =>
    match lastSentAt with
    | none => return some window
    | some previous =>
      let observed ← observed? moment
      let elapsed := observed - previous
      return if elapsed < 0 ∨ minutes settings.intervalMinutes ≤ elapsed then some window else none

/-! ## The agent -/

/-- What a reminder says. -/
structure TrackingReminder where
  mode : String
  message : String
  windowEndsAt : Datetime
  deriving DecidableEq, Repr

/-- The row `tracking_reminders` of the journal. -/
structure SavedReminders where
  settings : ReminderMapping
  lastSentAt : Option Int
  deriving DecidableEq, Repr

/-- What `TrackerAgent` holds of the timer and of the reminders, and the row of the journal. -/
structure ReminderAgent where
  timerState : SessionStatus := .stopped
  settings : ReminderSettings
  lastSentAt : Option Int
  saved : SavedReminders
  deriving DecidableEq, Repr

/-- A reading of `datetime.now().astimezone()`. -/
structure ClockReading where
  wall : Int
  utcoffset : Int
  deriving DecidableEq, Repr

/-- The datetime. -/
def ClockReading.moment (reading : ClockReading) : Datetime := ⟨reading.wall, some reading.utcoffset⟩

/-- The instant that was read. -/
def ClockReading.instant (reading : ClockReading) : Int := reading.wall - reading.utcoffset

/-- Python has the datetime in UTC and the dates around it. -/
structure ClockReading.Dated (reading : ClockReading) : Prop where
  before : InDateRange (dateOf reading.wall - 1)
  after : InDateRange (dateOf reading.wall + 1)
  utc : InDatetimeRange reading.instant

namespace ReminderAgent

/-- The start of the process. -/
def launch (saved : SavedReminders) : ReminderAgent where
  settings := ((ReminderSettings.fromMapping false (some saved.settings)).toOption).getD {}
  lastSentAt := saved.lastSentAt
  saved := saved

/-- `configure_tracking_reminders`. -/
def configure (value : Option ReminderMapping) (s : ReminderAgent) : Except Error ReminderAgent :=
  (ReminderSettings.fromMapping true value).map fun settings =>
    { s with settings, lastSentAt := none, saved := { settings := settings.asDict, lastSentAt := none } }

/-- The moment of a reminder or a deferral, in memory and on disk. -/
def send (sentAt : Int) (s : ReminderAgent) : ReminderAgent :=
  { s with
    lastSentAt := some sentAt
    saved := { settings := s.settings.asDict, lastSentAt := some sentAt } }

/-- `start_tracking`; `chosen` says that a project is selected. A call that raises changes nothing. -/
def startTracking (chosen : Bool) (s : ReminderAgent) : ReminderAgent :=
  if s.timerState = .stopped ∧ chosen then { s with timerState := .active } else s

/-- `pause_tracking`. -/
def pauseTracking (s : ReminderAgent) : ReminderAgent :=
  if s.timerState = .active then { s with timerState := .paused } else s

/-- `resume_tracking`. -/
def resumeTracking (s : ReminderAgent) : ReminderAgent :=
  if s.timerState = .paused then { s with timerState := .active } else s

/-- `defer_tracking_reminder`; a call that raises changes nothing. -/
def deferTrackingReminder (observed : Datetime) (s : ReminderAgent) : ReminderAgent :=
  match activeReminderWindow? s.settings observed, observed? observed with
  | some (some _), some sentAt => s.send sentAt
  | _, _ => s

/-- `stop_tracking`, of the employee or of the schedule. -/
def stopTracking (observed : Datetime) (s : ReminderAgent) : ReminderAgent :=
  if s.timerState = .stopped then s
  else { s with timerState := .stopped }.deferTrackingReminder observed

/-- What is left of a window, in words. -/
def remainingText (remaining : Nat) : String :=
  if remaining / 3600 = 0 then toString (max 1 (remaining % 3600 / 60)) ++ "m"
  else toString (remaining / 3600) ++ "h " ++ toString (remaining % 3600 / 60) ++ "m"

/-- `tracking_reminder`. A call that raises delivers nothing. -/
def trackingReminder (observed : Datetime) (s : ReminderAgent) : ReminderAgent × Option TrackingReminder :=
  if s.timerState ≠ .stopped then (s, none)
  else
    match reminderIsDue? s.settings observed s.lastSentAt, observed? observed with
    | some (some window), some sentAt =>
      let remaining := ((window.endsAt.wall - observed.wall) / seconds 1).toNat
      (s.send sentAt,
        some {
          mode := s.settings.mode
          message := "You are not tracking time. The reminder window has " ++ remainingText remaining ++
            " remaining."
          windowEndsAt := window.endsAt })
    | _, _ => (s, none)

end ReminderAgent

/-! ## Histories -/

/-- What happens to the agent. -/
inductive ReminderOp
  | start (chosen : Bool)
  | pause
  | resume
  | stop (reading : ClockReading)
  | poll (reading : ClockReading)
  | restart
  deriving DecidableEq, Repr

/-- The clock reading of an operation. -/
def ReminderOp.reading : ReminderOp → Option ClockReading
  | .stop reading | .poll reading => some reading
  | _ => none

/-- A delivery, or a stop of the running timer inside a window. -/
structure ReminderEntry where
  delivered : Bool
  instant : Int
  deriving DecidableEq, Repr

/-- The agent, and its deliveries and its stops inside a window. -/
structure ReminderLog where
  agent : ReminderAgent
  entries : List ReminderEntry := []
  deriving DecidableEq, Repr

/-- A window is open at a reading. -/
def InReminderWindow (settings : ReminderSettings) (reading : ClockReading) : Prop :=
  ∃ d, settings.Open reading.wall d

/-- The two dates whose windows can be open. -/
def inReminderWindow (settings : ReminderSettings) (reading : ClockReading) : Bool :=
  [dateOf reading.wall - 1, dateOf reading.wall].any fun d => decide (settings.Open reading.wall d)

/-- One step. -/
def ReminderLog.step (s : ReminderLog) : ReminderOp → ReminderLog
  | .start chosen => { s with agent := s.agent.startTracking chosen }
  | .pause => { s with agent := s.agent.pauseTracking }
  | .resume => { s with agent := s.agent.resumeTracking }
  | .restart => { s with agent := .launch s.agent.saved }
  | .stop reading =>
    { agent := s.agent.stopTracking reading.moment
      entries :=
        if s.agent.timerState ≠ .stopped ∧ inReminderWindow s.agent.settings reading then
          s.entries ++ [⟨false, reading.instant⟩]
        else s.entries }
  | .poll reading =>
    { agent := (s.agent.trackingReminder reading.moment).1
      entries :=
        if (s.agent.trackingReminder reading.moment).2.isSome then s.entries ++ [⟨true, reading.instant⟩]
        else s.entries }

/-- The process starts with what the journal has of the settings. -/
def ReminderLog.start (settings : ReminderSettings) (lastSentAt : Option Int) : ReminderLog where
  agent := .launch { settings := settings.asDict, lastSentAt }

/-! ## Settings that were read -/

section

variable {settings : ReminderSettings}

namespace ReminderSettings

theorem mem_orderedDays {days : List String} {day : String} :
    day ∈ orderedDays days ↔ day ∈ reminderDays ∧ day ∈ days := by
  unfold orderedDays
  rw [List.mem_filter, List.contains_iff_mem]

/-- The settings that `from_mapping` answers are valid, with the days in order. -/
theorem fromMapping_valid {value : Option ReminderMapping} (h : fromMapping true value = .ok settings) :
    settings.Valid ∧ orderedDays settings.days = settings.days := by
  unfold fromMapping at h
  split at h
  · cases h
  split at h
  · cases h
  · rename_i read hread
    cases h
    have hvalid : read.Valid := by simpa using (Option.filter_eq_some_iff.mp hread).2
    have hkept : ∀ day ∈ read.days, day ∈ orderedDays read.days := fun day hday =>
      mem_orderedDays.mpr ⟨hvalid.knownDays day hday, hday⟩
    refine ⟨⟨hvalid.start, hvalid.stop, hvalid.differ, ?_, ?_, ?_, ?_, hvalid.interval, hvalid.mode⟩, ?_⟩
    · obtain ⟨day, hday⟩ := List.exists_mem_of_ne_nil _ hvalid.someDay
      exact List.ne_nil_of_mem (hkept day hday)
    · exact List.length_filter_le _ _
    · exact fun day hday => (mem_orderedDays.mp hday).1
    · exact List.Nodup.filter _ (by decide)
    · show orderedDays (orderedDays read.days) = orderedDays read.days
      refine List.filter_congr fun day hday => ?_
      rw [Bool.eq_iff_iff, List.contains_iff_mem, List.contains_iff_mem, mem_orderedDays]
      exact and_iff_right hday

/-- **Settings outlive the process**: what `from_mapping` answered is read back from what `as_dict` makes of
it. -/
theorem fromMapping_asDict (hvalid : settings.Valid) (hdays : orderedDays settings.days = settings.days) :
    fromMapping false (some settings.asDict) = .ok settings := by
  have hlisted : (settings.days.map some).mapM id = some settings.days := by
    induction settings.days with
    | nil => rfl
    | cons day days ih => simp [List.mapM_cons, ih]
  have hfields : ofFields settings.asDict = some settings := by
    unfold ofFields asDict JsonField.get
    simp [hlisted]
  unfold fromMapping
  dsimp only
  have hkept : (some settings).filter (fun read => decide read.Valid) = some settings :=
    Option.filter_some_pos (decide_eq_true hvalid)
  rw [hfields, hkept]
  dsimp only
  rw [hdays]

/-! ## Windows -/

theorem Valid.clocks (hvalid : settings.Valid) :
    (clock (some settings.start) = some settings.starts ∧ settings.starts < 1440) ∧
      clock (some settings.stop) = some settings.ends ∧ settings.ends < 1440 := by
  have hclock : ∀ {text : String}, (clock (some text)).isSome →
      clock (some text) = some ((clock (some text)).getD 0) ∧ (clock (some text)).getD 0 < 1440 := by
    intro text hsome
    obtain ⟨n, hn⟩ := Option.isSome_iff_exists.mp hsome
    rw [hn, Option.getD_some]
    refine ⟨rfl, ?_⟩
    rw [clock_some] at hn
    split at hn
    · exact strptimeClock_lt hn
    · cases hn
  exact ⟨hclock hvalid.start, hclock hvalid.stop⟩

/-- A window that is open began on the day of the moment or on the day before. -/
theorem Open.date {wall d : Int} (hvalid : settings.Valid) (h : settings.Open wall d) :
    d = dateOf wall - 1 ∨ d = dateOf wall := by
  obtain ⟨⟨_, hstarts⟩, _, hends⟩ := hvalid.clocks
  have hbegun := h.begun
  have hrunning := h.running
  unfold startsAt at hbegun
  unfold endsAt at hrunning
  rw [minutes_eq] at hbegun hrunning
  unfold dateOf
  unfold startOfDay at hbegun hrunning
  unfold Dayfinch.days seconds at *
  split at hrunning <;> omega

/-- The windows that can be open are those of two dates. -/
theorem inReminderWindow_iff (hvalid : settings.Valid) (reading : ClockReading) :
    inReminderWindow settings reading = true ↔ InReminderWindow settings reading := by
  unfold inReminderWindow InReminderWindow
  rw [List.any_eq_true]
  constructor
  · rintro ⟨d, _, hopen⟩
    exact ⟨d, of_decide_eq_true hopen⟩
  · rintro ⟨d, hopen⟩
    refine ⟨d, ?_, decide_eq_true hopen⟩
    rcases hopen.date hvalid with rfl | rfl
    · exact List.mem_cons_self
    · exact List.mem_cons_of_mem _ List.mem_cons_self

/-- A working date makes a candidate exactly if its window is open. -/
theorem reminderCandidate_isSome (henabled : settings.enabled = true)
    (hdiffer : settings.starts ≠ settings.ends) (wall d : Int) :
    (reminderCandidate settings wall settings.starts settings.ends d).isSome ↔ settings.Open wall d := by
  unfold reminderCandidate
  by_cases hchosen : dayName d ∈ settings.days
  · rw [if_neg (not_not.mpr hchosen)]
    show (if settings.startsAt d ≤ wall ∧ wall < settings.endsAt d then some _ else none).isSome ↔ _
    by_cases hinside : settings.startsAt d ≤ wall ∧ wall < settings.endsAt d
    · rw [if_pos hinside]
      exact iff_of_true rfl ⟨henabled, hdiffer, hchosen, hinside.1, hinside.2⟩
    · rw [if_neg hinside]
      exact iff_of_false (by simp) fun hopen => hinside ⟨hopen.begun, hopen.running⟩
  · rw [if_pos hchosen]
    exact iff_of_false (by simp) fun hopen => hchosen hopen.chosen

end ReminderSettings

theorem earliest_isSome {κ : Type} (candidates : List (Int × κ)) :
    (earliest candidates).isSome ↔ candidates ≠ [] := by
  cases candidates with
  | nil => simp [earliest]
  | cons c candidates =>
    refine iff_of_true ?_ (List.cons_ne_nil _ _)
    unfold earliest
    split
    · rfl
    · split <;> rfl

/-- What `active_reminder_window` answers at a reading: a window exactly if one is open, and always an answer
if the dates around the reading exist. -/
theorem activeReminderWindow?_spec (hvalid : settings.Valid) (reading : ClockReading) :
    (∀ window, activeReminderWindow? settings reading.moment = some (some window) →
      InReminderWindow settings reading) ∧
    (reading.Dated → ∃ answer, activeReminderWindow? settings reading.moment = some answer ∧
      (answer.isSome ↔ InReminderWindow settings reading)) := by
  obtain ⟨⟨hstart, _⟩, hstop, _⟩ := hvalid.clocks
  unfold activeReminderWindow?
  rw [hstart, hstop]
  cases henabled : settings.enabled with
  | false =>
    have hnone : ¬ InReminderWindow settings reading := by
      rintro ⟨d, hopen⟩
      rw [hopen.enabled] at henabled
      cases henabled
    exact ⟨fun window h => (by cases h), fun _ => ⟨none, rfl, iff_of_false (by simp) hnone⟩⟩
  | true =>
    rw [if_neg (by decide)]
    dsimp only
    by_cases hsame : settings.starts = settings.ends
    · rw [if_pos hsame]
      have hnone : ¬ InReminderWindow settings reading := fun ⟨d, hopen⟩ => hopen.differ hsame
      exact ⟨fun window h => (by cases h), fun _ => ⟨none, rfl, iff_of_false (by simp) hnone⟩⟩
    rw [if_neg hsame]
    have hanswer : ([reading.moment.date - 1, reading.moment.date].filterMap
        (reminderCandidate settings reading.moment.wall settings.starts settings.ends)) ≠ [] ↔
          InReminderWindow settings reading := by
      constructor
      · intro hne
        obtain ⟨candidate, hmem⟩ := List.exists_mem_of_ne_nil _ hne
        obtain ⟨d, _, hsome⟩ := List.mem_filterMap.mp hmem
        exact ⟨d, (ReminderSettings.reminderCandidate_isSome henabled hsame _ d).mp
          (Option.isSome_of_eq_some hsome)⟩
      · rintro ⟨d, hopen⟩
        obtain ⟨candidate, hsome⟩ := Option.isSome_iff_exists.mp
          ((ReminderSettings.reminderCandidate_isSome henabled hsame _ d).mpr hopen)
        refine List.ne_nil_of_mem (List.mem_filterMap.mpr ⟨d, ?_, hsome⟩)
        rcases hopen.date hvalid with rfl | rfl
        · exact List.mem_cons_self
        · exact List.mem_cons_of_mem _ List.mem_cons_self
    rw [← earliest_isSome] at hanswer
    constructor
    · intro window h
      split at h
      · cases h
      · refine hanswer.mp ?_
        have hsome := congrArg Option.isSome (Option.some.inj h)
        rwa [Option.isSome_map] at hsome
    · intro hdated
      have hfits : reminderOverflows settings reading.moment.date settings.starts settings.ends = false := by
        unfold reminderOverflows
        rw [decide_eq_true (show InDateRange (reading.moment.date - 1) from hdated.before),
          decide_eq_true (show InDateRange (reading.moment.date + 1) from hdated.after),
          Bool.not_true, Bool.and_false]
        rfl
      rw [hfits, if_neg (by decide)]
      exact ⟨_, rfl, by rw [Option.isSome_map]; exact hanswer⟩

/-! ## One call -/

/-- The last reminder or deferral does not silence a reading: it lies ahead of it, or an interval back. -/
def NotSilenced (settings : ReminderSettings) (lastSentAt : Option Int) (reading : ClockReading) : Prop :=
  ∀ last, lastSentAt = some last →
    reading.instant < last ∨ last + minutes settings.intervalMinutes ≤ reading.instant

theorem observed?_eq_some {reading : ClockReading} {t : Int} :
    observed? reading.moment = some t ↔ InDatetimeRange reading.instant ∧ reading.instant = t := by
  unfold observed?
  show (if InDatetimeRange reading.instant then some reading.instant else none) = some t ↔ _
  by_cases hrange : InDatetimeRange reading.instant
  · rw [if_pos hrange, Option.some.injEq, and_iff_right hrange]
  · rw [if_neg hrange]
    exact iff_of_false (by simp) fun h => hrange h.1

/-- A reminder is due in an open window that is not silenced. -/
theorem reminderIsDue?_spec (hvalid : settings.Valid) (lastSentAt : Option Int) (reading : ClockReading) :
    (∀ window, reminderIsDue? settings reading.moment lastSentAt = some (some window) →
      InReminderWindow settings reading ∧ NotSilenced settings lastSentAt reading) ∧
    (reading.Dated → InReminderWindow settings reading → NotSilenced settings lastSentAt reading →
      ∃ window, reminderIsDue? settings reading.moment lastSentAt = some (some window)) := by
  obtain ⟨hinside, hanswers⟩ := activeReminderWindow?_spec hvalid reading
  unfold reminderIsDue?
  constructor
  · intro window h
    obtain ⟨answer, hanswer, h⟩ := Option.bind_eq_some_iff.mp h
    cases answer with
    | none => cases h
    | some found =>
      refine ⟨hinside found hanswer, fun last hlast => ?_⟩
      subst hlast
      obtain ⟨observed, hobserved, h⟩ := Option.bind_eq_some_iff.mp h
      obtain ⟨_, rfl⟩ := observed?_eq_some.mp hobserved
      have hdue := Option.some.inj h
      split at hdue
      · omega
      · cases hdue
  · intro hdated hopen hfree
    obtain ⟨answer, hanswer, hiff⟩ := hanswers hdated
    obtain ⟨window, rfl⟩ := Option.isSome_iff_exists.mp (hiff.mpr hopen)
    refine ⟨window, ?_⟩
    rw [hanswer]
    cases lastSentAt with
    | none => rfl
    | some last =>
      have hobserved : observed? reading.moment = some reading.instant :=
        observed?_eq_some.mpr ⟨hdated.utc, rfl⟩
      have hdue : reading.instant - last < 0 ∨ minutes settings.intervalMinutes ≤ reading.instant - last := by
        have := hfree last rfl
        omega
      show (observed? reading.moment).bind _ = _
      rw [hobserved]
      exact congrArg some (if_pos hdue)

namespace ReminderAgent

variable {s : ReminderAgent}

/-- A poll that delivers. -/
theorem trackingReminder_isSome (hvalid : s.settings.Valid) {reading : ClockReading}
    (h : (s.trackingReminder reading.moment).2.isSome) :
    s.timerState = .stopped ∧ InReminderWindow s.settings reading ∧
      NotSilenced s.settings s.lastSentAt reading ∧
      (s.trackingReminder reading.moment).1 = s.send reading.instant := by
  unfold trackingReminder at h ⊢
  by_cases hstopped : s.timerState = .stopped
  · rw [if_neg (not_not.mpr hstopped)] at h ⊢
    split at h
    · rename_i window sentAt hdue hobserved
      obtain ⟨hopen, hfree⟩ := (reminderIsDue?_spec hvalid s.lastSentAt reading).1 window hdue
      obtain ⟨_, rfl⟩ := observed?_eq_some.mp hobserved
      exact ⟨hstopped, hopen, hfree, rfl⟩
    · cases h
  · rw [if_pos hstopped] at h
    cases h

/-- A poll that delivers nothing changes nothing. -/
theorem trackingReminder_isNone {observed : Datetime} (h : (s.trackingReminder observed).2 = none) :
    (s.trackingReminder observed).1 = s := by
  unfold trackingReminder at h ⊢
  split at h
  · rename_i hrunning
    rw [if_pos hrunning]
  · rename_i hstopped
    rw [if_neg hstopped]
    split at h
    · cases h
    · rfl

/-- **When a poll delivers.** -/
theorem trackingReminder_isSome_iff (hvalid : s.settings.Valid) {reading : ClockReading}
    (hdated : reading.Dated) :
    (s.trackingReminder reading.moment).2.isSome ↔
      s.timerState = .stopped ∧ InReminderWindow s.settings reading ∧
        NotSilenced s.settings s.lastSentAt reading := by
  constructor
  · intro h
    obtain ⟨hstopped, hopen, hfree, _⟩ := trackingReminder_isSome hvalid h
    exact ⟨hstopped, hopen, hfree⟩
  · rintro ⟨hstopped, hopen, hfree⟩
    obtain ⟨window, hdue⟩ := (reminderIsDue?_spec hvalid s.lastSentAt reading).2 hdated hopen hfree
    have hobserved : observed? reading.moment = some reading.instant :=
      observed?_eq_some.mpr ⟨hdated.utc, rfl⟩
    unfold trackingReminder
    rw [if_neg (not_not.mpr hstopped), hdue, hobserved]
    rfl

/-- A stop of the running timer is deferred exactly if a window is open. -/
theorem stopTracking_running (hvalid : s.settings.Valid) {reading : ClockReading} (hdated : reading.Dated)
    (hrunning : s.timerState ≠ .stopped) :
    s.stopTracking reading.moment =
      if inReminderWindow s.settings reading then { s with timerState := .stopped }.send reading.instant
      else { s with timerState := .stopped } := by
  obtain ⟨answer, hanswer, hiff⟩ := (activeReminderWindow?_spec hvalid reading).2 hdated
  have hobserved : observed? reading.moment = some reading.instant :=
    observed?_eq_some.mpr ⟨hdated.utc, rfl⟩
  rw [← ReminderSettings.inReminderWindow_iff hvalid] at hiff
  unfold stopTracking deferTrackingReminder
  rw [if_neg hrunning]
  dsimp only
  rw [hanswer, hobserved]
  cases answer with
  | none =>
    rw [if_neg fun hopen => absurd (hiff.mpr hopen) (by decide)]
  | some window =>
    rw [if_pos (hiff.mp rfl)]

end ReminderAgent

/-! ## Every history -/

/-- The clock readings of an operation are dated. -/
def ReminderOp.Dated (op : ReminderOp) : Prop := ∀ reading, op.reading = some reading → reading.Dated

/-- The clock never goes back. -/
def Nondecreasing (ops : List ReminderOp) : Prop :=
  (ops.filterMap ReminderOp.reading).Pairwise fun r q => r.instant ≤ q.instant

instance (ops : List ReminderOp) : Decidable (Nondecreasing ops) :=
  inferInstanceAs (Decidable (List.Pairwise _ _))

/-- Every delivery comes an interval after every delivery and every stop inside a window before it. -/
def ReminderSettings.Spaced (settings : ReminderSettings) (entries : List ReminderEntry) : Prop :=
  entries.Pairwise fun e f => f.delivered = true → e.instant + minutes settings.intervalMinutes ≤ f.instant

/-- The settings stay, the journal has what the memory has, and the last entry is remembered. -/
structure Remembered (settings : ReminderSettings) (s : ReminderLog) : Prop where
  same : s.agent.settings = settings
  saved : s.agent.saved = { settings := settings.asDict, lastSentAt := s.agent.lastSentAt }
  last : ∀ e, s.entries.getLast? = some e → s.agent.lastSentAt = some e.instant

namespace Remembered

variable {s : ReminderLog}

/-- What moves the timer alone. -/
theorem of_agent (h : Remembered settings s) {agent : ReminderAgent}
    (hsettings : agent.settings = s.agent.settings) (hsaved : agent.saved = s.agent.saved)
    (hlast : agent.lastSentAt = s.agent.lastSentAt) : Remembered settings { s with agent } where
  same := hsettings.trans h.same
  saved := by rw [hsaved, hlast, h.saved]
  last := fun e he => hlast.trans (h.last e he)

/-- What sends a reminder or defers one. -/
theorem send (h : Remembered settings s) (timerState : SessionStatus) (entry : ReminderEntry) :
    Remembered settings
      { agent := { s.agent with timerState }.send entry.instant, entries := s.entries ++ [entry] } where
  same := h.same
  saved := by
    show SavedReminders.mk s.agent.settings.asDict _ = _
    rw [h.same]
    rfl
  last := by
    intro e he
    rw [List.getLast?_concat] at he
    cases he
    rfl

/-- **One step** keeps what is remembered. -/
theorem step (h : Remembered settings s) (hvalid : settings.Valid)
    (hdays : ReminderSettings.orderedDays settings.days = settings.days) {op : ReminderOp}
    (hdated : op.Dated) : Remembered settings (s.step op) := by
  have hagent : s.agent.settings.Valid := h.same ▸ hvalid
  cases op with
  | start chosen =>
    refine h.of_agent ?_ ?_ ?_ <;>
    · unfold ReminderAgent.startTracking
      split <;> rfl
  | pause =>
    refine h.of_agent ?_ ?_ ?_ <;>
    · unfold ReminderAgent.pauseTracking
      split <;> rfl
  | resume =>
    refine h.of_agent ?_ ?_ ?_ <;>
    · unfold ReminderAgent.resumeTracking
      split <;> rfl
  | restart =>
    refine h.of_agent ?_ rfl ?_
    · show ((ReminderSettings.fromMapping false (some s.agent.saved.settings)).toOption).getD {} = _
      rw [h.saved, ReminderSettings.fromMapping_asDict hvalid hdays, h.same]
      rfl
    · show s.agent.saved.lastSentAt = _
      rw [h.saved]
  | stop reading =>
    show Remembered settings
      { agent := s.agent.stopTracking reading.moment
        entries := if s.agent.timerState ≠ .stopped ∧ inReminderWindow s.agent.settings reading then
          s.entries ++ [⟨false, reading.instant⟩] else s.entries }
    by_cases hrunning : s.agent.timerState = .stopped
    · rw [if_neg fun hboth => hboth.1 hrunning]
      have hsame : s.agent.stopTracking reading.moment = s.agent := if_pos hrunning
      rw [hsame]
      exact h
    · rw [ReminderAgent.stopTracking_running hagent (hdated reading rfl) hrunning]
      by_cases hopen : inReminderWindow s.agent.settings reading = true
      · rw [if_pos hopen, if_pos ⟨hrunning, hopen⟩]
        exact h.send .stopped ⟨false, reading.instant⟩
      · rw [if_neg hopen, if_neg fun hboth => hopen hboth.2]
        exact h.of_agent rfl rfl rfl
  | poll reading =>
    show Remembered settings
      { agent := (s.agent.trackingReminder reading.moment).1
        entries := if (s.agent.trackingReminder reading.moment).2.isSome then
          s.entries ++ [⟨true, reading.instant⟩] else s.entries }
    cases hreminder : (s.agent.trackingReminder reading.moment).2 with
    | none =>
      rw [ReminderAgent.trackingReminder_isNone hreminder, if_neg (by decide)]
      exact h
    | some reminder =>
      have hsent := (ReminderAgent.trackingReminder_isSome hagent (by rw [hreminder]; rfl)).2.2.2
      rw [hsent, if_pos Option.isSome_some]
      exact h.send s.agent.timerState ⟨true, reading.instant⟩

end Remembered

theorem remembered_start (hvalid : settings.Valid)
    (hdays : ReminderSettings.orderedDays settings.days = settings.days) (lastSentAt : Option Int) :
    Remembered settings (.start settings lastSentAt) where
  same := by
    show ((ReminderSettings.fromMapping false (some settings.asDict)).toOption).getD {} = _
    rw [ReminderSettings.fromMapping_asDict hvalid hdays]
    rfl
  saved := rfl
  last := by
    intro e he
    cases he

theorem remembered_run (hvalid : settings.Valid)
    (hdays : ReminderSettings.orderedDays settings.days = settings.days) {s : ReminderLog}
    (h : Remembered settings s) {ops : List ReminderOp} (hdated : ∀ op ∈ ops, op.Dated) :
    Remembered settings (run ReminderLog.step s ops) := by
  induction ops generalizing s with
  | nil => exact h
  | cons op ops ih =>
    exact ih (h.step hvalid hdays (hdated op List.mem_cons_self))
      fun later hlater => hdated later (List.mem_cons_of_mem op hlater)

/-- What a step adds to the entries: nothing, or one at its clock reading; a delivery is not silenced. -/
theorem step_entries (hvalid : settings.Valid) {s : ReminderLog} (h : Remembered settings s)
    (op : ReminderOp) :
    (s.step op).entries = s.entries ∨
    ∃ entry reading, (s.step op).entries = s.entries ++ [entry] ∧ op.reading = some reading ∧
      entry.instant = reading.instant ∧
      (entry.delivered = true → NotSilenced settings s.agent.lastSentAt reading) := by
  cases op with
  | start chosen => exact .inl rfl
  | pause => exact .inl rfl
  | resume => exact .inl rfl
  | restart => exact .inl rfl
  | stop reading =>
    unfold ReminderLog.step
    dsimp only
    split
    · exact .inr ⟨_, reading, rfl, rfl, rfl, fun hdelivered => by cases hdelivered⟩
    · exact .inl rfl
  | poll reading =>
    unfold ReminderLog.step
    dsimp only
    split
    · rename_i hsome
      refine .inr ⟨_, reading, rfl, rfl, rfl, fun _ => ?_⟩
      rw [← h.same]
      exact (ReminderAgent.trackingReminder_isSome (h.same ▸ hvalid) hsome).2.2.1
    · exact .inl rfl

/-- Under a clock that never goes back, entries come in order and deliveries are spaced. -/
theorem spaced_run (hvalid : settings.Valid)
    (hdays : ReminderSettings.orderedDays settings.days = settings.days) {s : ReminderLog}
    (h : Remembered settings s) {ops : List ReminderOp} (hdated : ∀ op ∈ ops, op.Dated)
    (hclock : Nondecreasing ops)
    (hafter : ∀ e ∈ s.entries, ∀ reading ∈ ops.filterMap ReminderOp.reading, e.instant ≤ reading.instant)
    (hordered : s.entries.Pairwise fun e f => e.instant ≤ f.instant) (hspaced : settings.Spaced s.entries) :
    settings.Spaced (run ReminderLog.step s ops).entries := by
  induction ops generalizing s with
  | nil => exact hspaced
  | cons op ops ih =>
    have hop := hdated op List.mem_cons_self
    have hrest := fun later hlater => hdated later (List.mem_cons_of_mem op hlater)
    have hstep := h.step hvalid hdays hop
    rw [Library.run_cons]
    have hlater : ∀ reading ∈ ops.filterMap ReminderOp.reading,
        reading ∈ (op :: ops).filterMap ReminderOp.reading := by
      intro reading hmem
      rw [List.filterMap_cons]
      split
      · exact hmem
      · exact List.mem_cons_of_mem _ hmem
    have htail : Nondecreasing ops := by
      unfold Nondecreasing at hclock ⊢
      rw [List.filterMap_cons] at hclock
      split at hclock
      · exact hclock
      · exact (List.pairwise_cons.mp hclock).2
    rcases step_entries hvalid h op with hsame | ⟨entry, reading, hadded, hreading, hinstant, hfree⟩
    · refine ih hstep hrest htail ?_ ?_ ?_
      · rw [hsame]
        exact fun e he r hr => hafter e he r (hlater r hr)
      · rw [hsame]
        exact hordered
      · rw [hsame]
        exact hspaced
    · have hnow : reading ∈ (op :: ops).filterMap ReminderOp.reading := by
        rw [List.filterMap_cons, hreading]
        exact List.mem_cons_self
      have hahead : ∀ r ∈ ops.filterMap ReminderOp.reading, reading.instant ≤ r.instant := by
        unfold Nondecreasing at hclock
        rw [List.filterMap_cons, hreading] at hclock
        exact (List.pairwise_cons.mp hclock).1
      refine ih hstep hrest htail ?_ ?_ ?_
      · intro e he r hr
        rw [hadded] at he
        rcases List.mem_append.mp he with hold | hnew
        · exact hafter e hold r (hlater r hr)
        · rw [List.mem_singleton.mp hnew, hinstant]
          exact hahead r hr
      · rw [hadded]
        refine List.pairwise_append.mpr ⟨hordered, List.pairwise_singleton _ _, ?_⟩
        intro e he f hf
        rw [List.mem_singleton.mp hf, hinstant]
        exact hafter e he reading hnow
      · rw [hadded]
        refine List.pairwise_append.mpr ⟨hspaced, List.pairwise_singleton _ _, ?_⟩
        intro e he f hf hdelivered
        rw [List.mem_singleton.mp hf] at hdelivered ⊢
        -- the last entry is the one that the agent remembers
        obtain ⟨before, last, hentries⟩ : ∃ before last, s.entries = before ++ [last] :=
          ⟨_, _, (List.dropLast_concat_getLast (List.ne_nil_of_mem he)).symm⟩
        have hlast := h.last last (by rw [hentries, List.getLast?_concat])
        have hback : last.instant ≤ reading.instant :=
          hafter last (by rw [hentries]; exact List.mem_append_right _ List.mem_cons_self) reading hnow
        have hgap : last.instant + minutes settings.intervalMinutes ≤ reading.instant :=
          (hfree hdelivered last.instant hlast).resolve_left (not_lt.mpr hback)
        have hle : e.instant ≤ last.instant := by
          rw [hentries] at he hordered
          rcases List.mem_append.mp he with hearly | hend
          · exact (List.pairwise_append.mp hordered).2.2 e hearly last List.mem_cons_self
          · rw [List.mem_singleton.mp hend]
        omega

/-- **Tracking reminders.** In every history, a poll delivers exactly while the timer is stopped inside a
window, unless the last reminder or deferral lies within the interval before it; the last of those is the last
entry of the history; and while the clock never goes back, a delivery comes an interval after every delivery
and every stop inside a window before it. -/
theorem reminders_spaced (value : Option ReminderMapping) (settings : ReminderSettings)
    (hvalue : ReminderSettings.fromMapping true value = .ok settings) (lastSentAt : Option Int)
    (ops : List ReminderOp) (hdated : ∀ op ∈ ops, op.Dated) :
    (∀ reading : ClockReading, reading.Dated →
      (((run ReminderLog.step (.start settings lastSentAt) ops).agent.trackingReminder reading.moment).2.isSome ↔
        (run ReminderLog.step (.start settings lastSentAt) ops).agent.timerState = .stopped ∧
        InReminderWindow settings reading ∧
        NotSilenced settings (run ReminderLog.step (.start settings lastSentAt) ops).agent.lastSentAt reading)) ∧
    (∀ last, (run ReminderLog.step (.start settings lastSentAt) ops).entries.getLast? = some last →
      (run ReminderLog.step (.start settings lastSentAt) ops).agent.lastSentAt = some last.instant) ∧
    (Nondecreasing ops →
      settings.Spaced (run ReminderLog.step (.start settings lastSentAt) ops).entries) := by
  obtain ⟨hvalid, hdays⟩ := ReminderSettings.fromMapping_valid hvalue
  have hstart := remembered_start hvalid hdays lastSentAt
  have hrun := remembered_run hvalid hdays hstart hdated
  refine ⟨fun reading hreading => ?_, hrun.last, fun hclock => ?_⟩
  · have hagent : (run ReminderLog.step (.start settings lastSentAt) ops).agent.settings.Valid := by
      rw [hrun.same]
      exact hvalid
    rw [ReminderAgent.trackingReminder_isSome_iff hagent hreading, hrun.same]
  · exact spaced_run hvalid hdays hstart hdated hclock (fun e he => by cases he) List.Pairwise.nil
      List.Pairwise.nil

end

/-- A minute of a Monday, on a clock that shows UTC. -/
def mondayAt (minute : Nat) : ClockReading where
  wall := days 4 + minutes minute
  utcoffset := 0

theorem mondayAt_dated {minute : Nat} (h : minute < 1440) : (mondayAt minute).Dated := by
  have hdate : dateOf (days 4 + minutes minute) = 4 := by
    rw [dateOf_eq_iff, minutes_eq]
    unfold startOfDay days seconds
    omega
  refine ⟨?_, ?_, ?_⟩
  · show InDateRange (dateOf (days 4 + minutes minute) - 1)
    rw [hdate]
    decide +kernel
  · show InDateRange (dateOf (days 4 + minutes minute) + 1)
    rw [hdate]
    decide +kernel
  · show InDateRange (dateOf (days 4 + minutes minute - 0))
    rw [Int.sub_zero, hdate]
    decide +kernel

/-- Reminders on working days from nine to five, every fifteen minutes. -/
def workingDays : ReminderSettings := { enabled := true }

/-- A reminder at ten, a stop at eleven, and two polls after it. -/
theorem reminders_spaced_monday :
    workingDays.Spaced
      (run ReminderLog.step (.start workingDays none)
        [.poll (mondayAt 600), .start true, .stop (mondayAt 660), .poll (mondayAt 674), .poll (mondayAt 675)]).entries := by
  refine (reminders_spaced (some workingDays.asDict) workingDays (by decide +kernel) none
    [.poll (mondayAt 600), .start true, .stop (mondayAt 660), .poll (mondayAt 674), .poll (mondayAt 675)] ?_).2.2 ?_
  · intro op hop
    simp only [List.mem_cons, List.not_mem_nil, or_false] at hop
    rcases hop with rfl | rfl | rfl | rfl | rfl <;> intro reading hreading <;> cases hreading <;>
      exact mondayAt_dated (by decide)
  · decide +kernel

/-- A small step back after a reminder: the clock is still later than the reminder, and the next poll is
silent. -/
theorem reminders_small_step_back :
    ¬ ∀ (value : Option ReminderMapping) (settings : ReminderSettings),
      ReminderSettings.fromMapping true value = .ok settings →
      ∀ (lastSentAt : Option Int) (ops : List ReminderOp) (before reading : ClockReading),
        (∀ op ∈ ops, op.Dated) → reading.Dated → ops.getLast? = some (.poll before) →
        reading.instant < before.instant →
        (run ReminderLog.step (.start settings lastSentAt) ops).agent.timerState = .stopped →
        InReminderWindow settings reading →
        ((run ReminderLog.step (.start settings lastSentAt) ops).agent.trackingReminder
          reading.moment).2.isSome := by
  intro h
  have hdelivers := h (some workingDays.asDict) workingDays (by decide +kernel) none
    [.poll (mondayAt 600), .poll (mondayAt 610)] (mondayAt 610) (mondayAt 605) ?_
    (mondayAt_dated (by decide)) rfl (by decide +kernel) (by decide +kernel) ⟨4, by decide +kernel⟩
  · exact absurd hdelivers (by decide +kernel)
  · intro op hop
    simp only [List.mem_cons, List.not_mem_nil, or_false] at hop
    rcases hop with rfl | rfl <;> intro reading hreading <;> cases hreading <;>
      exact mondayAt_dated (by decide)

end Dayfinch
