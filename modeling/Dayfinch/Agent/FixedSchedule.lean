/-
# Dayfinch.Agent.FixedSchedule -- the schedules of the settings form and the windows of the agent

A fixed schedule passes two parsers. The settings form accepts what `strptime` reads as `%H:%M`, which
takes one digit for an hour or a minute and the digits of any script, and asks that the two texts
differ; the agent reads texts of five characters and asks that the two times differ. `AgentReads` is
what a schedule needs for the agent to know it.

What a schedule means is stated without either: an occurrence begins on a chosen day and ends on the
next day unless its end is the later time. `activeWindow?` is `active_window` with the dates Python has,
`none` standing for the `OverflowError` of a date outside them.
-/
import Dayfinch.Agent.Automatic

namespace Dayfinch

open Library.Calendar (weekday monthOf monthStart)
open Library.Text (decimalDigit)

/-! ## The settings form -/

/-- The form of the automatic tracking settings. -/
structure AutomaticForm where
  name : String
  ruleType : String
  projectId : String
  waitForActivity : Bool
  days : List String
  startTime : String
  endTime : String
  userIds : List String
  deriving DecidableEq, Repr

/-- What `_automatic_policy_values` answers. -/
structure AutomaticValues where
  name : String
  ruleType : RuleType
  projectId : String
  waitForActivity : Bool
  schedule : List (String × List Interval)
  userIds : List String
  deriving DecidableEq, Repr

/-- `allowed_days`. -/
def allowedDays : List String := ["mon", "tue", "wed", "thu", "fri", "sat", "sun"]

/-- The schedule of the form: the same interval on every chosen day. -/
def fixedSchedule (days : List String) (startTime endTime : String) : List (String × List Interval) :=
  days.map fun day => (day, [{ start := some startTime, stop := some endTime }])

/-- `_automatic_policy_values`; an error is the detail of a 422. -/
def automaticPolicyValues (form : AutomaticForm) : Except String AutomaticValues :=
  let days := form.days.eraseDups
  let values (ruleType : RuleType) (schedule : List (String × List Interval)) : AutomaticValues :=
    { name := form.name, ruleType, projectId := form.projectId
      waitForActivity := form.waitForActivity, schedule, userIds := form.userIds.take 500 }
  if form.ruleType ≠ "fixed_schedule" ∧ form.ruleType ≠ "shifts" then
    .error "Invalid automatic tracking rule"
  else if days.any fun day => !allowedDays.contains day then .error "Invalid schedule day"
  else if form.ruleType = "fixed_schedule" then
    if (strptimeClock form.startTime).isNone ∨ (strptimeClock form.endTime).isNone then
      .error "Use valid start and end times"
    else if form.startTime = form.endTime then .error "Start and end times must differ"
    else .ok (values .fixedSchedule (fixedSchedule days form.startTime form.endTime))
  else .ok (values .shifts [])

/-- The policy of the values, once the member has accepted it. -/
def AutomaticValues.accepted (values : AutomaticValues) (id : String) : AutomaticPolicy where
  id := id
  name := values.name
  ruleType := values.ruleType
  projectId := values.projectId
  waitForActivity := values.waitForActivity
  schedule := some values.schedule
  consentStatus := .accepted
  shiftWindows := some []

/-! ## The window of a moment, in the dates Python has -/

/-- The interval makes a candidate of the working date, and it ends on the next day. -/
def Interval.overnight (interval : Interval) : Bool :=
  match clock interval.start, clock interval.stop with
  | some starts, some ends => ends < starts
  | _, _ => false

/-- `_fixed_window` leaves the dates: yesterday's is always computed, and tomorrow's for an interval of
today that ends on the next day. -/
def fixedOverflows (policy : AutomaticPolicy) (moment : Datetime) : Bool :=
  policy.schedule.any fun schedule =>
    !decide (InDateRange (moment.date - 1)) ||
      ((((schedule.lookup (dayName moment.date)).getD []).take 8).any Interval.overnight &&
        !decide (InDateRange (moment.date + 1)))

/-- `active_window`; `none` is an `OverflowError`. -/
def activeWindow? (policy : Option AutomaticPolicy) (moment : Datetime) : Option (Option ActiveWindow) :=
  if policy.any fun p =>
      p.consentStatus == .accepted && p.ruleType == .fixedSchedule && fixedOverflows p moment then none
  else some (activeWindow policy moment)

/-! ## What a schedule means -/

/-- The minute of the day that the form's text stands for. -/
def AutomaticForm.starts (form : AutomaticForm) : Nat := (strptimeClock form.startTime).getD 0

/-- The minute of the day of the end. -/
def AutomaticForm.ends (form : AutomaticForm) : Nat := (strptimeClock form.endTime).getD 0

/-- The wall clock where the occurrence of a working date begins. -/
def AutomaticForm.startsAt (form : AutomaticForm) (d : Int) : Int := startOfDay d + minutes form.starts

/-- The wall clock where it ends: on the next day unless the end is the later time. -/
def AutomaticForm.endsAt (form : AutomaticForm) (d : Int) : Int :=
  startOfDay (if form.ends ≤ form.starts then d + 1 else d) + minutes form.ends

/-- **The moment lies in the occurrence** that begins on the date `d`, a chosen day. -/
structure AutomaticForm.Occurs (form : AutomaticForm) (d wall : Int) : Prop where
  chosen : dayName d ∈ form.days
  begun : form.startsAt d ≤ wall
  running : wall < form.endsAt d

/-- What the agent remembers an occurrence by. -/
def AutomaticForm.occurrenceKey (form : AutomaticForm) (id : String) (d : Int) : String :=
  id ++ ":fixed:" ++ (dateText d ++ ":" ++ timeText (form.starts * 60) ++ ":" ++ timeText (form.ends * 60))

/-- **The window is the occurrence that the moment lies in**: there is a window exactly if there is such
an occurrence, and its key and end are those of the one that began first. -/
inductive WindowOf (form : AutomaticForm) (id : String) (wall : Int) : Option ActiveWindow → Prop
  | nowhere (h : ∀ d, ¬ form.Occurs d wall) : WindowOf form id wall none
  | within (d : Int) (h : form.Occurs d wall) (hfirst : ∀ e, form.Occurs e wall → d ≤ e)
      (window : ActiveWindow) (hkey : window.key = form.occurrenceKey id d)
      (hend : window.endsAt.wall = form.endsAt d) : WindowOf form id wall (some window)

/-- The agent's answer is the window of the moment. -/
def AnswersWindow (form : AutomaticForm) (policy : AutomaticPolicy) (moment : Datetime) : Prop :=
  ∃ window, activeWindow? (some policy) moment = some window ∧ WindowOf form policy.id moment.wall window

/-- **What the agent needs to read the schedule**: two texts of five characters, and two times. -/
structure AgentReads (form : AutomaticForm) : Prop where
  start : form.startTime.length = 5
  stop : form.endTime.length = 5
  differ : form.starts ≠ form.ends

/-! ## Clocks -/

theorem strptimeHour_lt {hour : List Char} {h : Nat} (hh : strptimeHour hour = some h) : h < 24 := by
  unfold strptimeHour at hh
  split at hh
  · have := Library.Text.decimalDigit_lt hh
    omega
  · rename_i c
    split at hh
    · rename_i hc
      have hhigh : c.toNat ≤ 0x33 := hc.2
      have hnine : c ≤ '9' := show c.toNat ≤ 0x39 by omega
      rw [Library.Text.decimalDigit_ascii ⟨hc.1, hnine⟩] at hh
      obtain rfl := Option.some.inj hh
      show 20 + (c.toNat - 0x30) < 24
      omega
    · cases hh
  · rename_i c c' _
    split at hh
    · rename_i hc
      obtain ⟨n, hn, rfl⟩ := Option.map_eq_some_iff.mp hh
      have := Library.Text.decimalDigit_lt hn
      rcases hc with rfl | rfl
      · show (0x30 - 0x30) * 10 + n < 24
        omega
      · show (0x31 - 0x30) * 10 + n < 24
        omega
    · cases hh
  · cases hh

theorem strptimeMinute_lt {minute : List Char} {m : Nat} (hm : strptimeMinute minute = some m) :
    m < 60 := by
  unfold strptimeMinute at hm
  split at hm
  · have := Library.Text.decimalDigit_lt hm
    omega
  · rename_i c c'
    split at hm
    · rename_i hc
      have hhigh : c.toNat ≤ 0x35 := hc.2
      obtain ⟨n, hn, rfl⟩ := Option.map_eq_some_iff.mp hm
      have := Library.Text.decimalDigit_lt hn
      show (c.toNat - 0x30) * 10 + n < 60
      omega
    · cases hm
  · cases hm

theorem strptimeClock_lt {text : String} {n : Nat} (h : strptimeClock text = some n) : n < 1440 := by
  unfold strptimeClock at h
  split at h
  · obtain ⟨hour, hhour, h⟩ := Option.bind_eq_some_iff.mp h
    obtain ⟨minute, hminute, h⟩ := Option.bind_eq_some_iff.mp h
    obtain rfl := Option.some.inj h
    have := strptimeHour_lt hhour
    have := strptimeMinute_lt hminute
    omega
  · cases h

/-- The agent reads what `strptime` reads, if it has five characters. -/
theorem clock_some (text : String) :
    clock (some text) = if text.length = 5 then strptimeClock text else none := rfl

/-! ## The texts that name a date -/

theorem zeroPadded_eq (width n : Nat) : zeroPadded width n = String.leftpad width '0' (toString n) := by
  rw [Nat.toString_eq_ofList_toDigits, String.leftpad, String.toList_ofList, List.leftpad]
  rfl

theorem dash_not_mem_zeroPadded (width n : Nat) : '-' ∉ (zeroPadded width n).toList := by
  intro hmem
  rw [zeroPadded_eq] at hmem
  have hdigit := Library.Text.isDigit_of_mem_leftpad hmem
  revert hdigit
  decide

theorem zeroPadded_inj {width m n : Nat} (h : zeroPadded width m = zeroPadded width n) : m = n := by
  rw [zeroPadded_eq, zeroPadded_eq] at h
  exact Library.Text.leftpad_toString_inj h

/-- `str(date)` says which date it is. -/
theorem dateText_inj {d e : Int} (hd : InDateRange d) (he : InDateRange e)
    (h : dateText d = dateText e) : d = e := by
  have hfields : ∀ date, (dateText date).toList =
      (zeroPadded 4 (monthOf date / 12).toNat).toList ++ '-' ::
        ((zeroPadded 2 (monthOf date % 12 + 1).toNat).toList ++ '-' ::
          (zeroPadded 2 (date - monthStart (monthOf date) + 1).toNat).toList) := by
    intro date
    simp [dateText]
  have hlist := congrArg String.toList h
  rw [hfields, hfields] at hlist
  obtain ⟨hyear, hrest⟩ := Library.Text.split_at_separator (dash_not_mem_zeroPadded _ _)
    (dash_not_mem_zeroPadded _ _) hlist
  obtain ⟨hmonth, hday⟩ := Library.Text.split_at_separator (dash_not_mem_zeroPadded _ _)
    (dash_not_mem_zeroPadded _ _) hrest
  have hyear := zeroPadded_inj (String.toList_inj.mp hyear)
  have hmonth := zeroPadded_inj (String.toList_inj.mp hmonth)
  have hday := zeroPadded_inj (String.toList_inj.mp hday)
  have hpositive : ∀ date, InDateRange date → 12 ≤ monthOf date := by
    intro date hdate
    by_contra hlt
    have hnext : monthStart (monthOf date + 1) ≤ monthStart (12 * 1) :=
      Library.Calendar.monthStart_strictMono.monotone (by omega)
    exact absurd hdate.1 (not_le.mpr (lt_of_lt_of_le (Library.Calendar.monthOf_spec date).2 hnext))
  have hd12 := hpositive d hd
  have he12 := hpositive e he
  have hsame : monthOf d = monthOf e := by omega
  have hdspec := (Library.Calendar.monthOf_spec d).1
  have hespec := (Library.Calendar.monthOf_spec e).1
  rw [hsame] at hday hdspec
  omega

/-- **Different occurrences have different keys.** -/
theorem occurrenceKey_inj {form : AutomaticForm} {id : String} {d e : Int} (hd : InDateRange d)
    (he : InDateRange e) (h : form.occurrenceKey id d = form.occurrenceKey id e) : d = e := by
  have hlist := congrArg String.toList h
  unfold AutomaticForm.occurrenceKey at hlist
  simp only [String.toList_append, List.append_assoc, List.append_cancel_left_eq,
    List.append_cancel_right_eq] at hlist
  exact dateText_inj hd he (String.toList_inj.mp hlist)

/-! ## The candidates of a moment -/

section

variable {form : AutomaticForm} {id : String} {wall : Int}

theorem minutes_eq (n : Nat) : minutes n = n * 60000000 := by
  unfold minutes seconds
  omega

/-- An occurrence that a moment lies in began on the day of the moment or on the day before. -/
theorem AutomaticForm.Occurs.date {d : Int} (h : form.Occurs d wall)
    (hstart : (strptimeClock form.startTime).isSome) (hend : (strptimeClock form.endTime).isSome) :
    d = dateOf wall - 1 ∨ d = dateOf wall := by
  obtain ⟨starts, hstarts⟩ := Option.isSome_iff_exists.mp hstart
  obtain ⟨ends, hends⟩ := Option.isSome_iff_exists.mp hend
  have hs := strptimeClock_lt hstarts
  have he := strptimeClock_lt hends
  have hbegun := h.begun
  have hrunning := h.running
  unfold AutomaticForm.startsAt AutomaticForm.starts at hbegun
  unfold AutomaticForm.endsAt AutomaticForm.starts AutomaticForm.ends at hrunning
  rw [hstarts, Option.getD_some, minutes_eq] at hbegun
  rw [hstarts, hends, Option.getD_some, Option.getD_some, minutes_eq] at hrunning
  unfold dateOf
  unfold startOfDay at hbegun hrunning
  unfold Dayfinch.days seconds at *
  split at hrunning <;> omega

theorem startsAt_lt {d e : Int} (h : d < e) : form.startsAt d < form.startsAt e := by
  unfold AutomaticForm.startsAt
  have := startOfDay_lt_startOfDay.mpr h
  omega

/-- The candidate of a working date. -/
def AutomaticForm.candidate (form : AutomaticForm) (d : Int) : Int × Int × String :=
  (form.startsAt d, form.endsAt d,
    dateText d ++ ":" ++ timeText (form.starts * 60) ++ ":" ++ timeText (form.ends * 60))

theorem lookup_fixedSchedule (days : List String) (startTime endTime name : String) :
    (fixedSchedule days startTime endTime).lookup name =
      if name ∈ days then some [{ start := some startTime, stop := some endTime }] else none := by
  unfold fixedSchedule
  induction days with
  | nil => rfl
  | cons day days ih =>
    rw [List.map_cons, List.lookup_cons, ih]
    by_cases hname : name = day
    · simp [hname]
    · rw [beq_false_of_ne hname]
      simp [hname]

/-- The interval of the form makes a candidate of the dates whose occurrence the moment lies in, where
the agent reads the form. -/
theorem candidates_eq (wall : Int) (hstart : (strptimeClock form.startTime).isSome)
    (hend : (strptimeClock form.endTime).isSome) (d : Int) :
    (AgentReads form → form.Occurs d wall →
      ((((fixedSchedule form.days.eraseDups form.startTime form.endTime).lookup (dayName d)).getD
        []).take 8).filterMap (fixedCandidate wall d) = [form.candidate d]) ∧
    (¬ (AgentReads form ∧ form.Occurs d wall) →
      ((((fixedSchedule form.days.eraseDups form.startTime form.endTime).lookup (dayName d)).getD
        []).take 8).filterMap (fixedCandidate wall d) = []) := by
  obtain ⟨starts, hstarts⟩ := Option.isSome_iff_exists.mp hstart
  obtain ⟨ends, hends⟩ := Option.isSome_iff_exists.mp hend
  have hs : form.starts = starts := by rw [AutomaticForm.starts, hstarts, Option.getD_some]
  have he : form.ends = ends := by rw [AutomaticForm.ends, hends, Option.getD_some]
  rw [lookup_fixedSchedule]
  constructor
  · intro hreads hoccurs
    rw [if_pos (List.mem_eraseDups.mpr hoccurs.chosen)]
    have hdiffer := hreads.differ
    have hbegun := hoccurs.begun
    have hrunning := hoccurs.running
    simp only [Option.getD_some, List.take_succ_cons, List.take_nil, List.filterMap_cons,
      List.filterMap_nil, fixedCandidate, clock_some, if_pos hreads.start, if_pos hreads.stop, hstarts,
      hends]
    unfold AutomaticForm.startsAt at hbegun
    unfold AutomaticForm.endsAt at hrunning
    rw [hs] at hbegun hdiffer hrunning
    rw [he] at hdiffer hrunning
    rw [if_pos ⟨hdiffer, hbegun, hrunning⟩]
    simp only [AutomaticForm.candidate, AutomaticForm.startsAt, AutomaticForm.endsAt, hs, he]
  · intro hnot
    by_cases hchosen : dayName d ∈ form.days
    swap
    · rw [if_neg fun hmem => hchosen (List.mem_eraseDups.mp hmem)]
      rfl
    rw [if_pos (List.mem_eraseDups.mpr hchosen)]
    simp only [Option.getD_some, List.take_succ_cons, List.take_nil, List.filterMap_cons,
      List.filterMap_nil, fixedCandidate, clock_some]
    by_cases hstartLength : form.startTime.length = 5
    swap
    · rw [if_neg hstartLength]
    by_cases hendLength : form.endTime.length = 5
    swap
    · rw [if_neg hendLength]
      cases (if form.startTime.length = 5 then strptimeClock form.startTime else none) <;> rfl
    rw [if_pos hstartLength, if_pos hendLength, hstarts, hends]
    dsimp only
    rw [if_neg]
    rintro ⟨hdiffer, hbegun, hrunning⟩
    refine hnot ⟨⟨hstartLength, hendLength, ?_⟩, ⟨hchosen, ?_, ?_⟩⟩
    · rw [hs, he]
      exact hdiffer
    · unfold AutomaticForm.startsAt
      rw [hs]
      exact hbegun
    · unfold AutomaticForm.endsAt
      rw [hs, he]
      exact hrunning

/-- The window made of a candidate. -/
def AutomaticForm.windowOf (form : AutomaticForm) (policy : AutomaticPolicy) (moment : Datetime) (d : Int) :
    ActiveWindow where
  key := form.occurrenceKey policy.id d
  projectId := policy.projectId
  endsAt := ⟨form.endsAt d, some (moment.utcoffset.getD 0)⟩

/-- The window of a schedule that the agent reads is the one of the moment. -/
theorem fixedWindow_reads (hstart : (strptimeClock form.startTime).isSome)
    (hend : (strptimeClock form.endTime).isSome) (hreads : AgentReads form) {policy : AutomaticPolicy}
    (hschedule : policy.schedule =
      some (fixedSchedule form.days.eraseDups form.startTime form.endTime)) (moment : Datetime) :
    WindowOf form policy.id moment.wall (fixedWindow policy moment) := by
  have hcandidates := fun d => candidates_eq moment.wall hstart hend d
  have honly : ∀ d, form.Occurs d moment.wall → d = moment.date - 1 ∨ d = moment.date :=
    fun d h => h.date hstart hend
  unfold fixedWindow
  rw [hschedule]
  simp only [List.flatMap_cons, List.flatMap_nil, List.append_nil]
  by_cases hyesterday : form.Occurs (moment.date - 1) moment.wall
  · rw [(hcandidates _).1 hreads hyesterday]
    have hfirst : ∀ e, form.Occurs e moment.wall → moment.date - 1 ≤ e := by
      intro e he
      rcases honly e he with rfl | rfl <;> omega
    by_cases htoday : form.Occurs moment.date moment.wall
    · rw [(hcandidates _).1 hreads htoday]
      have hearliest : earliest [form.candidate (moment.date - 1), form.candidate moment.date] =
          some (form.candidate (moment.date - 1)) := by
        have hlt : form.startsAt (moment.date - 1) < form.startsAt moment.date := startsAt_lt (by omega)
        exact if_neg (not_lt.mpr hlt.le)
      rw [List.singleton_append, hearliest]
      exact .within _ hyesterday hfirst (form.windowOf policy moment _) rfl rfl
    · rw [(hcandidates _).2 fun h => htoday h.2]
      exact .within _ hyesterday hfirst (form.windowOf policy moment _) rfl rfl
  · rw [(hcandidates _).2 fun h => hyesterday h.2]
    by_cases htoday : form.Occurs moment.date moment.wall
    · rw [(hcandidates _).1 hreads htoday]
      refine .within _ htoday (fun e he => ?_) (form.windowOf policy moment _) rfl rfl
      rcases honly e he with rfl | rfl
      · exact absurd he hyesterday
      · exact le_rfl
    · rw [(hcandidates _).2 fun h => htoday h.2]
      refine .nowhere fun d h => ?_
      rcases honly d h with rfl | rfl
      · exact hyesterday h
      · exact htoday h

/-- A schedule that the agent does not read has no windows. -/
theorem fixedWindow_unread (hstart : (strptimeClock form.startTime).isSome)
    (hend : (strptimeClock form.endTime).isSome) (hreads : ¬ AgentReads form) {policy : AutomaticPolicy}
    (hschedule : policy.schedule =
      some (fixedSchedule form.days.eraseDups form.startTime form.endTime)) (moment : Datetime) :
    fixedWindow policy moment = none := by
  unfold fixedWindow
  rw [hschedule]
  simp only [List.flatMap_cons, List.flatMap_nil, List.append_nil]
  rw [(candidates_eq moment.wall hstart hend _).2 fun h => hreads h.1,
    (candidates_eq moment.wall hstart hend _).2 fun h => hreads h.1]
  rfl

/-- While no occurrence that began earlier is running, the key is that of the occurrence. -/
theorem WindowOf.key_eq {window : ActiveWindow} (h : WindowOf form id wall (some window)) {d : Int}
    (hoccurs : form.Occurs d wall) (hearlier : ∀ e < d, ¬ form.Occurs e wall) :
    window.key = form.occurrenceKey id d := by
  cases h with
  | within e he hfirst _ hkey _ =>
    have hle : e ≤ d := hfirst d hoccurs
    have hge : d ≤ e := not_lt.mp fun hlt => hearlier e hlt he
    rw [hkey, le_antisymm hle hge]

/-! ## The dates of the calculation -/

/-- **The dates around the moment exist**: the day before, and the day after where the schedule, as the
agent reads it, runs over the midnight after a chosen day. -/
structure DatesExist (form : AutomaticForm) (d : Int) : Prop where
  before : InDateRange (d - 1)
  after : AgentReads form → form.ends < form.starts → dayName d ∈ form.days → InDateRange (d + 1)

theorem fixedOverflows_eq_false (hstart : (strptimeClock form.startTime).isSome)
    (hend : (strptimeClock form.endTime).isSome) {policy : AutomaticPolicy}
    (hschedule : policy.schedule =
      some (fixedSchedule form.days.eraseDups form.startTime form.endTime)) (moment : Datetime) :
    fixedOverflows policy moment = false ↔ DatesExist form moment.date := by
  obtain ⟨starts, hstarts⟩ := Option.isSome_iff_exists.mp hstart
  obtain ⟨ends, hends⟩ := Option.isSome_iff_exists.mp hend
  have hs : form.starts = starts := by rw [AutomaticForm.starts, hstarts, Option.getD_some]
  have he : form.ends = ends := by rw [AutomaticForm.ends, hends, Option.getD_some]
  have hovernight : Interval.overnight { start := some form.startTime, stop := some form.endTime } = true ↔
      AgentReads form ∧ form.ends < form.starts := by
    unfold Interval.overnight
    rw [clock_some, clock_some]
    constructor
    · intro h
      by_cases hstartLength : form.startTime.length = 5
      swap
      · rw [if_neg hstartLength] at h
        cases h
      by_cases hendLength : form.endTime.length = 5
      swap
      · rw [if_neg hendLength] at h
        revert h
        cases (if form.startTime.length = 5 then strptimeClock form.startTime else none) <;>
          exact fun h => by cases h
      rw [if_pos hstartLength, if_pos hendLength, hstarts, hends] at h
      have hlt : ends < starts := of_decide_eq_true h
      exact ⟨⟨hstartLength, hendLength, by omega⟩, by omega⟩
    · rintro ⟨hreads, hlt⟩
      rw [if_pos hreads.start, if_pos hreads.stop, hstarts, hends]
      rw [hs, he] at hlt
      exact decide_eq_true hlt
  unfold fixedOverflows
  rw [hschedule, Option.any_some, lookup_fixedSchedule, Bool.or_eq_false_iff, Bool.and_eq_false_iff]
  simp only [Bool.not_eq_false', decide_eq_true_eq]
  constructor
  · rintro ⟨hbefore, hafter⟩
    refine ⟨hbefore, fun hreads hlt hchosen => ?_⟩
    rcases hafter with hnone | hafter
    · rw [if_pos (List.mem_eraseDups.mpr hchosen)] at hnone
      rw [Option.getD_some, List.take_succ_cons, List.any_cons, Bool.or_eq_false_iff,
        ← Bool.not_eq_true] at hnone
      exact absurd (hovernight.mpr ⟨hreads, hlt⟩) hnone.1
    · exact hafter
  · rintro ⟨hbefore, hafter⟩
    refine ⟨hbefore, ?_⟩
    by_cases hchosen : dayName moment.date ∈ form.days
    · by_cases hover : AgentReads form ∧ form.ends < form.starts
      · exact .inr (hafter hover.1 hover.2 hchosen)
      · left
        rw [if_pos (List.mem_eraseDups.mpr hchosen), Option.getD_some, List.take_succ_cons,
          List.take_nil, List.any_cons, List.any_nil, Bool.or_false, ← Bool.not_eq_true]
        exact fun h => hover (hovernight.mp h)
    · left
      rw [if_neg fun hmem => hchosen (List.mem_eraseDups.mp hmem)]
      rfl

end

/-! ## Every accepted schedule -/

/-- What the form has checked of a fixed schedule. -/
theorem automaticPolicyValues_fixed {form : AutomaticForm} {values : AutomaticValues}
    (hrule : form.ruleType = "fixed_schedule") (h : automaticPolicyValues form = .ok values) :
    (strptimeClock form.startTime).isSome ∧ (strptimeClock form.endTime).isSome ∧
      values.ruleType = .fixedSchedule ∧
      values.schedule = fixedSchedule form.days.eraseDups form.startTime form.endTime := by
  unfold automaticPolicyValues at h
  dsimp only at h
  split at h
  · cases h
  split at h
  · cases h
  split at h
  · cases h
  rename_i htimes
  rw [not_or, Option.isNone_iff_eq_none, Option.isNone_iff_eq_none, ← ne_eq, ← ne_eq,
    ← Option.isSome_iff_ne_none, ← Option.isSome_iff_ne_none] at htimes
  split at h
  · cases h
  cases h
  exact ⟨htimes.1, htimes.2, rfl, rfl⟩

/-- The agent's answer for the policy of an accepted form is that of `_fixed_window`. -/
theorem activeWindow?_fixed {values : AutomaticValues} (id : String)
    (hfixed : values.ruleType = .fixedSchedule) (moment : Datetime) :
    activeWindow? (some (values.accepted id)) moment =
      if fixedOverflows (values.accepted id) moment then none
      else some (fixedWindow (values.accepted id) moment) := by
  have hwindow : activeWindow (some (values.accepted id)) moment =
      fixedWindow (values.accepted id) moment := by
    have hruleType : (values.accepted id).ruleType = .fixedSchedule := hfixed
    unfold activeWindow
    dsimp only
    rw [if_neg (show ¬ (values.accepted id).consentStatus ≠ .accepted from fun h => h rfl), hruleType]
  have hcheck : ((values.accepted id).consentStatus == .accepted &&
      (values.accepted id).ruleType == .fixedSchedule) = true := by
    show (_ && values.ruleType == .fixedSchedule) = true
    rw [hfixed]
    rfl
  unfold activeWindow?
  rw [hwindow, Option.any_some, hcheck, Bool.true_and]

/-- **The windows of a fixed schedule.** For every schedule that the form accepts, every policy made of it
and every moment, the agent answers the window of the moment if and only if the dates around it exist and
the agent reads the schedule, or the moment lies in no occurrence anyway. The key of a window is that of
the occurrence while none that began earlier is running, and different occurrences have different keys. -/
theorem fixedSchedule_windows_iff (form : AutomaticForm) (values : AutomaticValues) (id : String)
    (hrule : form.ruleType = "fixed_schedule") (hform : automaticPolicyValues form = .ok values) :
    (∀ moment, AnswersWindow form (values.accepted id) moment ↔
      DatesExist form moment.date ∧ (AgentReads form ∨ ∀ d, ¬ form.Occurs d moment.wall)) ∧
    (∀ moment window d, activeWindow? (some (values.accepted id)) moment = some (some window) →
      form.Occurs d moment.wall → (∀ e < d, ¬ form.Occurs e moment.wall) →
        window.key = form.occurrenceKey id d) ∧
    ∀ d e, InDateRange d → InDateRange e → form.occurrenceKey id d = form.occurrenceKey id e → d = e := by
  obtain ⟨hstart, hend, hfixed, hvalues⟩ := automaticPolicyValues_fixed hrule hform
  have hschedule : (values.accepted id).schedule =
      some (fixedSchedule form.days.eraseDups form.startTime form.endTime) := congrArg some hvalues
  refine ⟨fun moment => ?_, fun moment window d hwindow hoccurs hearlier => ?_,
    fun d e hd he h => occurrenceKey_inj hd he h⟩
  · unfold AnswersWindow
    rw [activeWindow?_fixed id hfixed, ← fixedOverflows_eq_false hstart hend hschedule]
    cases hoverflow : fixedOverflows (values.accepted id) moment with
    | true =>
        refine iff_of_false ?_ fun hdates => ?_
        · rintro ⟨window, hsome, _⟩
          cases hsome
        · cases hdates.1
    | false =>
        rw [if_neg (by decide)]
        simp only [true_and]
        by_cases hreads : AgentReads form
        · exact iff_of_true ⟨_, rfl, fixedWindow_reads hstart hend hreads hschedule moment⟩ (.inl hreads)
        · rw [fixedWindow_unread hstart hend hreads hschedule, or_iff_right hreads]
          constructor
          · rintro ⟨window, hsome, hwindowOf⟩
            obtain rfl := Option.some.inj hsome
            cases hwindowOf with
            | nowhere h => exact h
          · intro hnowhere
            exact ⟨none, rfl, .nowhere hnowhere⟩
  · rw [activeWindow?_fixed id hfixed] at hwindow
    split at hwindow
    · cases hwindow
    · have hfound := Option.some.inj hwindow
      by_cases hreads : AgentReads form
      · have hwindowOf := fixedWindow_reads hstart hend hreads hschedule moment
        rw [hfound] at hwindowOf
        exact hwindowOf.key_eq hoccurs hearlier
      · rw [fixedWindow_unread hstart hend hreads hschedule] at hfound
        cases hfound

/-- A form for Mondays. -/
def mondays (startTime endTime : String) : AutomaticForm where
  name := "Mondays"
  ruleType := "fixed_schedule"
  projectId := "1"
  waitForActivity := false
  days := ["mon"]
  startTime := startTime
  endTime := endTime
  userIds := ["1"]

/-- The values of the form. -/
def mondayValues (startTime endTime : String) : AutomaticValues where
  name := "Mondays"
  ruleType := .fixedSchedule
  projectId := "1"
  waitForActivity := false
  schedule := [("mon", [{ start := some startTime, stop := some endTime }])]
  userIds := ["1"]

/-- From ten in the evening to six in the morning, at five on a Tuesday. -/
theorem fixedSchedule_windows_iff_overnight :
    AnswersWindow (mondays "22:00" "06:00") ((mondayValues "22:00" "06:00").accepted "p")
      ⟨startOfDay 5 + minutes 300, some 0⟩ :=
  ((fixedSchedule_windows_iff (mondays "22:00" "06:00") (mondayValues "22:00" "06:00") "p" rfl
    (by decide +kernel)).1 ⟨startOfDay 5 + minutes 300, some 0⟩).mpr
      ⟨⟨by decide +kernel, fun _ _ _ => by decide +kernel⟩,
        .inl ⟨by decide +kernel, by decide +kernel, by decide +kernel⟩⟩

/-- From nine to five, written with one digit for the hour, at ten on a Monday: the form accepts the
schedule, and the agent finds no window. -/
theorem fixedSchedule_nine :
    ¬ ∀ (form : AutomaticForm) (values : AutomaticValues) (id : String) (moment : Datetime),
      form.ruleType = "fixed_schedule" → automaticPolicyValues form = .ok values →
      InDateRange moment.date → AnswersWindow form (values.accepted id) moment := by
  intro h
  obtain ⟨window, hwindow, hwindowOf⟩ := h (mondays "9:00" "17:00") (mondayValues "9:00" "17:00") "p"
    ⟨startOfDay 4 + minutes 600, some 0⟩ rfl (by decide +kernel) (by decide +kernel)
  have hnone : activeWindow? (some ((mondayValues "9:00" "17:00").accepted "p"))
      ⟨startOfDay 4 + minutes 600, some 0⟩ = some none := by decide +kernel
  rw [hnone] at hwindow
  obtain rfl := Option.some.inj hwindow
  cases hwindowOf with
  | nowhere hnowhere => exact hnowhere 4 ⟨by decide +kernel, by decide +kernel, by decide +kernel⟩

end Dayfinch
