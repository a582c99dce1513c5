/-
# Dayfinch.Approval.PayPeriods -- the open timesheets that are generated for each pay period

`generate_open_timesheets` computes the pay period of a date, by one of three rules, and inserts an open
timesheet of it for every enabled member whose timesheets have to be approved, unless there is one. Each rule
is a tiling of the dates: the months, the fortnights counted from Monday 1970-01-05, and the weeks.

The dates of Python end with the year 9999, and the computation raises where a date it needs is none: the ends
of the period, and for a month also the day after it. `PayPeriodExists` is that condition, and
`payPeriods_tile` what holds of the dates that meet it.
-/
import Dayfinch.Approval.Timesheets
import Dayfinch.Library.Tiling

namespace Dayfinch

open Library (Tiling run run_invariant)
open Library.Calendar (weekday monthOf monthStart monthLength monthOf_spec monthOf_monthStart monthOf_eq_iff
  monthStart_strictMono monthLength_bounds monthOf_monthStart_sub_one)

/-! ## The period of a date -/

/-- `datetime.date`. -/
abbrev PythonDate := {d : Int // InDateRange d}

/-- The date of a day; `none` is an `OverflowError`. -/
def pythonDate? (d : Int) : Option PythonDate := if h : InDateRange d then some ⟨d, h⟩ else none

/-- `pay_period` of `organization_settings`; the code takes any other text for `weekly`. -/
inductive PayFrequency
  | weekly | biweekly | monthly
  deriving DecidableEq, Repr

/-- `period_start` and `period_end`. -/
structure PayPeriod where
  first : PythonDate
  last : PythonDate
  deriving DecidableEq

/-- `date.replace(day=...)`, for a day that every month has. -/
def replaceDay (d : PythonDate) (day : Int) : Option PythonDate := pythonDate? (monthStart (monthOf d) + (day - 1))

/-- `date + timedelta(days=...)`. -/
def addDays (d : PythonDate) (n : Int) : Option PythonDate := pythonDate? (d + n)

/-- `date(1970, 1, 5)`. -/
def biweeklyAnchor : PythonDate := ⟨4, by decide +kernel⟩

/-- `python_weekday`. -/
def pythonWeekday (weekStart : Fin 7) : Int := if weekStart.val = 0 then 6 else weekStart.val - 1

/-- The pay period of `today`, as `generate_open_timesheets` computes it. -/
def payPeriod (frequency : PayFrequency) (weekStartsOn : Fin 7) (today : PythonDate) : Option PayPeriod :=
  match frequency with
  | .monthly => do
      let first ← replaceDay today 1
      let twentyEighth ← replaceDay first 28
      let afterMonth ← addDays twentyEighth 4
      let nextMonth ← replaceDay afterMonth 1
      let last ← addDays nextMonth (-1)
      return { first, last }
  | .biweekly => do
      let first ← addDays biweeklyAnchor ((today - biweeklyAnchor) / 14 * 14)
      let last ← addDays first 13
      return { first, last }
  | .weekly => do
      let first ← addDays today (-((weekday today - pythonWeekday weekStartsOn) % 7))
      let last ← addDays first 6
      return { first, last }

/-! ## The rules are tilings -/

/-- The periods of a frequency. -/
def PayFrequency.tiling (weekStartsOn : Fin 7) : PayFrequency → Tiling
  | .monthly => ⟨monthStart, monthOf, monthStart_strictMono, monthOf_spec⟩
  | .biweekly => .regular 4 14 (by decide)
  | .weekly => .regular (pythonWeekday weekStartsOn - 3) 7 (by decide)

/-- The dates that the computation of the pay period of a date needs. -/
def PayPeriodExists (frequency : PayFrequency) (weekStartsOn : Fin 7) (today : Int) : Prop :=
  InDateRange ((frequency.tiling weekStartsOn).first today) ∧
    InDateRange ((frequency.tiling weekStartsOn).last today) ∧
    (frequency = .monthly → InDateRange ((frequency.tiling weekStartsOn).last today + 1))

theorem pythonDate?_eq_some {d : Int} {p : PythonDate} : pythonDate? d = some p ↔ d = p.1 := by
  unfold pythonDate?
  split
  · next h =>
      rw [Option.some.injEq, Subtype.ext_iff]
  · next h =>
      simp only [reduceCtorEq, false_iff]
      rintro rfl
      exact h p.2

/-- A date, and one that is later by `n` days or earlier. -/
theorem addDays_eq_some {d p : PythonDate} {n : Int} : addDays d n = some p ↔ d + n = p.1 :=
  pythonDate?_eq_some

theorem replaceDay_eq_some {d p : PythonDate} {day : Int} :
    replaceDay d day = some p ↔ monthStart (monthOf d) + (day - 1) = p.1 :=
  pythonDate?_eq_some

/-- Four days after the 28th of a month it is the next month. -/
theorem monthOf_fourAfterTwentyEighth (k : Int) : monthOf (monthStart k + 27 + 4) = k + 1 := by
  have hthis := monthLength_bounds k
  have hnext := monthLength_bounds (k + 1)
  unfold monthLength at hthis hnext
  exact monthOf_eq_iff.mpr ⟨by omega, by omega⟩

theorem weekly_first (weekStartsOn : Fin 7) (today : Int) :
    (PayFrequency.tiling weekStartsOn .weekly).first today =
      today + -((weekday today - pythonWeekday weekStartsOn) % 7) := by
  simp only [PayFrequency.tiling, Tiling.first, Tiling.regular, weekday]
  omega

theorem weekly_last (weekStartsOn : Fin 7) (today : Int) :
    (PayFrequency.tiling weekStartsOn .weekly).last today =
      (PayFrequency.tiling weekStartsOn .weekly).first today + 6 := by
  simp only [PayFrequency.tiling, Tiling.first, Tiling.last, Tiling.regular]
  omega

theorem biweekly_first (weekStartsOn : Fin 7) (today : Int) :
    (PayFrequency.tiling weekStartsOn .biweekly).first today = 4 + (today - 4) / 14 * 14 := by
  simp only [PayFrequency.tiling, Tiling.first, Tiling.regular]
  omega

theorem biweekly_last (weekStartsOn : Fin 7) (today : Int) :
    (PayFrequency.tiling weekStartsOn .biweekly).last today =
      (PayFrequency.tiling weekStartsOn .biweekly).first today + 13 := by
  simp only [PayFrequency.tiling, Tiling.first, Tiling.last, Tiling.regular]
  omega

/-- A period that the rules for weeks and fortnights compute: a first day, and a last one after so many. -/
theorem first_and_last {first? : Option PythonDate} {first length : Int} {p : PayPeriod}
    (hfirst : ∀ d : PythonDate, first? = some d ↔ first = d.1) :
    (do let first ← first?
        let last ← addDays first length
        return { first, last : PayPeriod }) = some p ↔
      p.first.1 = first ∧ p.last.1 = first + length := by
  simp only [Option.bind_eq_bind, Option.bind_eq_some_iff, Option.pure_def, Option.some.injEq]
  constructor
  · rintro ⟨first', hfirst', last', hlast', rfl⟩
    have hvalue := (hfirst first').mp hfirst'
    have hvalue' := addDays_eq_some.mp hlast'
    rw [← hvalue] at hvalue'
    exact ⟨hvalue.symm, hvalue'.symm⟩
  · rintro ⟨hp, hp'⟩
    refine ⟨p.first, (hfirst _).mpr hp.symm, p.last, addDays_eq_some.mpr ?_, rfl⟩
    rw [hp, hp']

theorem payPeriod_monthly {weekStartsOn : Fin 7} {today : PythonDate} {p : PayPeriod} :
    payPeriod .monthly weekStartsOn today = some p ↔
      InDateRange (monthStart (monthOf today + 1)) ∧ p.first.1 = monthStart (monthOf today) ∧
        p.last.1 = monthStart (monthOf today + 1) - 1 := by
  simp only [payPeriod, Option.bind_eq_bind, Option.bind_eq_some_iff, Option.pure_def, Option.some.injEq]
  constructor
  · rintro ⟨first, hfirst, twentyEighth, htwentyEighth, afterMonth, hafter, nextMonth, hnext, last, hlast, rfl⟩
    have h1 := replaceDay_eq_some.mp hfirst
    have h2 := replaceDay_eq_some.mp htwentyEighth
    have h3 := addDays_eq_some.mp hafter
    have h4 := replaceDay_eq_some.mp hnext
    have h5 := addDays_eq_some.mp hlast
    rw [← h1, sub_self, add_zero, monthOf_monthStart] at h2
    rw [← h2] at h3
    rw [← h3, show (28 : Int) - 1 = 27 from rfl, monthOf_fourAfterTwentyEighth] at h4
    simp only [sub_self, add_zero] at h1 h4
    refine ⟨?_, h1.symm, ?_⟩
    · rw [h4]
      exact nextMonth.2
    · rw [← h5, ← h4]
      rfl
  · rintro ⟨hrange, hfirst, hlast⟩
    rw [inDateRange_iff, monthOf_monthStart] at hrange
    have htoday := inDateRange_iff.mp today.2
    have hin : ∀ d, monthOf d = monthOf today ∨ monthOf d = monthOf today + 1 → InDateRange d := by
      intro d hd
      rw [inDateRange_iff]
      omega
    have hlength := monthLength_bounds (monthOf today)
    unfold monthLength at hlength
    have h28 : monthOf (monthStart (monthOf today) + 27) = monthOf today :=
      monthOf_eq_iff.mpr ⟨by omega, by omega⟩
    refine ⟨p.first, replaceDay_eq_some.mpr (by rw [hfirst]; omega),
      ⟨monthStart (monthOf today) + 27, hin _ (.inl h28)⟩, replaceDay_eq_some.mpr ?_,
      ⟨monthStart (monthOf today) + 27 + 4, hin _ (.inr (monthOf_fourAfterTwentyEighth _))⟩,
      addDays_eq_some.mpr rfl,
      ⟨monthStart (monthOf today + 1), hin _ (.inr (monthOf_monthStart _))⟩, replaceDay_eq_some.mpr ?_,
      p.last, addDays_eq_some.mpr ?_, rfl⟩
    · rw [hfirst, monthOf_monthStart]
      rfl
    · rw [monthOf_fourAfterTwentyEighth]
      exact add_zero _
    · rw [hlast]
      rfl

theorem payPeriod_biweekly {weekStartsOn : Fin 7} {today : PythonDate} {p : PayPeriod} :
    payPeriod .biweekly weekStartsOn today = some p ↔
      p.first.1 = (PayFrequency.tiling weekStartsOn .biweekly).first today ∧
        p.last.1 = (PayFrequency.tiling weekStartsOn .biweekly).last today := by
  rw [biweekly_last, biweekly_first]
  exact first_and_last fun d => addDays_eq_some

theorem payPeriod_weekly {weekStartsOn : Fin 7} {today : PythonDate} {p : PayPeriod} :
    payPeriod .weekly weekStartsOn today = some p ↔
      p.first.1 = (PayFrequency.tiling weekStartsOn .weekly).first today ∧
        p.last.1 = (PayFrequency.tiling weekStartsOn .weekly).last today := by
  rw [weekly_last, weekly_first]
  exact first_and_last fun d => addDays_eq_some

/-- Weeks and fortnights exist with their ends. -/
theorem exists_of_ends {frequency : PayFrequency} {weekStartsOn : Fin 7} {today : Int} {p : PayPeriod}
    (hfrequency : frequency ≠ .monthly) (hfirst : p.first.1 = (frequency.tiling weekStartsOn).first today)
    (hlast : p.last.1 = (frequency.tiling weekStartsOn).last today) :
    PayPeriodExists frequency weekStartsOn today := by
  refine ⟨?_, ?_, fun h => absurd h hfrequency⟩
  · rw [← hfirst]
    exact p.first.2
  · rw [← hlast]
    exact p.last.2

/-- A month exists with the day after it. -/
theorem monthly_exists {weekStartsOn : Fin 7} {today : PythonDate} :
    PayPeriodExists .monthly weekStartsOn today ↔ InDateRange (monthStart (monthOf today + 1)) := by
  have htoday := inDateRange_iff.mp today.2
  have hnext : (PayFrequency.tiling weekStartsOn .monthly).last today + 1 = monthStart (monthOf today + 1) :=
    Int.sub_add_cancel _ _
  unfold PayPeriodExists
  rw [hnext]
  constructor
  · rintro ⟨-, -, h⟩
    exact h rfl
  · intro h
    refine ⟨?_, ?_, fun _ => h⟩
    · show InDateRange (monthStart (monthOf today))
      rw [inDateRange_iff, monthOf_monthStart]
      exact htoday
    · show InDateRange (monthStart (monthOf today + 1) - 1)
      rw [inDateRange_iff, monthOf_monthStart_sub_one]
      omega

/-- **The pay period of a date.** It is the one of the tiling, where it exists. -/
theorem payPeriod_eq_some_iff {frequency : PayFrequency} {weekStartsOn : Fin 7} {today : PythonDate}
    {p : PayPeriod} :
    payPeriod frequency weekStartsOn today = some p ↔
      PayPeriodExists frequency weekStartsOn today ∧
        p.first.1 = (frequency.tiling weekStartsOn).first today ∧
        p.last.1 = (frequency.tiling weekStartsOn).last today := by
  cases frequency with
  | monthly =>
    rw [payPeriod_monthly, monthly_exists]
    rfl
  | biweekly =>
    rw [payPeriod_biweekly, iff_and_self]
    exact fun h => exists_of_ends (by decide) h.1 h.2
  | weekly =>
    rw [payPeriod_weekly, iff_and_self]
    exact fun h => exists_of_ends (by decide) h.1 h.2

/-- The computation raises just where it lacks a date. -/
theorem payPeriod_isSome_iff {frequency : PayFrequency} {weekStartsOn : Fin 7} {today : PythonDate} :
    (payPeriod frequency weekStartsOn today).isSome ↔ PayPeriodExists frequency weekStartsOn today := by
  rw [Option.isSome_iff_exists]
  constructor
  · rintro ⟨p, hp⟩
    exact (payPeriod_eq_some_iff.mp hp).1
  · intro h
    exact ⟨⟨⟨_, h.1⟩, ⟨_, h.2.1⟩⟩, payPeriod_eq_some_iff.mpr ⟨h, rfl, rfl⟩⟩

/-- A pay period meets the checks of the table. -/
theorem payPeriod_length {frequency : PayFrequency} {weekStartsOn : Fin 7} {today : PythonDate} {p : PayPeriod}
    (h : payPeriod frequency weekStartsOn today = some p) :
    p.first.1 ≤ p.last ∧ p.last.1 - p.first ≤ 30 := by
  obtain ⟨-, hfirst, hlast⟩ := payPeriod_eq_some_iff.mp h
  cases frequency with
  | monthly =>
    have hlength := monthLength_bounds (monthOf today)
    have hfirst' : p.first.1 = monthStart (monthOf today) := hfirst
    have hlast' : p.last.1 = monthStart (monthOf today + 1) - 1 := hlast
    unfold monthLength at hlength
    omega
  | biweekly =>
    rw [biweekly_last] at hlast
    omega
  | weekly =>
    rw [weekly_last] at hlast
    omega

/-- A date lies in its period. -/
theorem payPeriod_contains {frequency : PayFrequency} {weekStartsOn : Fin 7} {today : PythonDate} {p : PayPeriod}
    (h : payPeriod frequency weekStartsOn today = some p) : p.first.1 ≤ today ∧ today.1 ≤ p.last := by
  obtain ⟨-, hfirst, hlast⟩ := payPeriod_eq_some_iff.mp h
  rw [hfirst, hlast]
  exact ⟨Tiling.first_le _, Tiling.le_last _⟩

/-- Two dates have equal or disjoint periods. -/
theorem payPeriod_eq_or_disjoint {frequency : PayFrequency} {weekStartsOn : Fin 7} {d e : PythonDate}
    {p q : PayPeriod} (hp : payPeriod frequency weekStartsOn d = some p)
    (hq : payPeriod frequency weekStartsOn e = some q) :
    p = q ∨ p.last.1 < q.first ∨ q.last.1 < p.first := by
  obtain ⟨-, hp, hp'⟩ := payPeriod_eq_some_iff.mp hp
  obtain ⟨-, hq, hq'⟩ := payPeriod_eq_some_iff.mp hq
  rw [hp, hp', hq, hq']
  refine (Tiling.index_eq_or_disjoint d.1 e.1).imp_left fun hsame => ?_
  have hfirst : p.first = q.first := Subtype.ext (by rw [hp, hq, Tiling.first, Tiling.first, hsame])
  have hlast : p.last = q.last := Subtype.ext (by rw [hp', hq', Tiling.last, Tiling.last, hsame])
  cases p
  cases q
  simp_all

/-- The day after a period begins the next one. -/
theorem payPeriod_adjacent {frequency : PayFrequency} {weekStartsOn : Fin 7} {d e : PythonDate} {p q : PayPeriod}
    (hp : payPeriod frequency weekStartsOn d = some p) (he : e.1 = p.last.1 + 1)
    (hq : payPeriod frequency weekStartsOn e = some q) : q.first.1 = p.last.1 + 1 := by
  obtain ⟨-, -, hp'⟩ := payPeriod_eq_some_iff.mp hp
  obtain ⟨-, hq, -⟩ := payPeriod_eq_some_iff.mp hq
  rw [hq, he, hp', Tiling.first_last_add_one]

/-! ## The open timesheets -/

/-- The insert of `generate_open_timesheets`: the database, and how many rows were inserted. -/
def insertOpenTimesheet (p : PayPeriod) (db : Database) (userId : Nat) : Except Error (Database × Nat) :=
  if p.last.1 < p.first ∨ 31 < p.last.1 - p.first then .error .checkViolation
  else if db.timesheets.any fun ts =>
      ts.userId == userId && ts.periodStart == p.first.1 && ts.periodEnd == p.last.1 then .ok (db, 0)
  else
    .ok ({ db with
      timesheets := db.timesheets ++
        [{ id := db.nextId, userId, periodStart := p.first, periodEnd := p.last, status := .open }]
      nextId := db.nextId + 1 }, 1)

/-- The members whose timesheets are generated; `requiresApproval` is the column `require_timesheet_approval`. -/
def approvalUsers (requiresApproval : Nat → Bool) (db : Database) : List Nat :=
  (db.users.filter fun u => u.enabled && requiresApproval u.id).map (·.id)

/-- The loop of `generate_open_timesheets` over the members. -/
def insertOpenTimesheets (p : PayPeriod) (users : List Nat) (db : Database) : Except Error (Database × Nat) :=
  users.foldlM (fun result userId =>
    (insertOpenTimesheet p result.1 userId).map fun inserted => (inserted.1, result.2 + inserted.2)) (db, 0)

/-- `generate_open_timesheets`; `none` is the `OverflowError` of a date. -/
def generateOpenTimesheets (frequency : PayFrequency) (weekStartsOn : Fin 7) (requiresApproval : Nat → Bool)
    (today : PythonDate) (db : Database) : Option (Except Error (Database × Nat)) :=
  (payPeriod frequency weekStartsOn today).map fun p =>
    insertOpenTimesheets p (approvalUsers requiresApproval db) db

/-- The job of a day: where it raises, the database stays as it was. -/
def generateStep (frequency : PayFrequency) (weekStartsOn : Fin 7) (requiresApproval : Nat → Bool)
    (db : Database) (today : PythonDate) : Database :=
  match generateOpenTimesheets frequency weekStartsOn requiresApproval today db with
  | some (.ok (db', _)) => db'
  | some (.error _) | none => db

/-- The timesheet is of the user and of the period. -/
def Timesheet.IsOf (userId : Nat) (p : PayPeriod) (ts : Timesheet) : Prop :=
  ts.userId = userId ∧ ts.periodStart = p.first ∧ ts.periodEnd = p.last

/-- The timesheets of a user are open ones of the periods of some days, each of another period. -/
structure GeneratedSheets (frequency : PayFrequency) (weekStartsOn : Fin 7) (days : List PythonDate)
    (userId : Nat) (sheets : List Timesheet) : Prop where
  generated : ∀ ts ∈ sheets, ts.userId = userId → ts.status = .open ∧
    ∃ d ∈ days, ∃ p, payPeriod frequency weekStartsOn d = some p ∧ ts.IsOf userId p
  distinct : (sheets.filter (·.userId == userId)).Pairwise fun a b =>
    ¬ (a.periodStart = b.periodStart ∧ a.periodEnd = b.periodEnd)

section

variable {frequency : PayFrequency} {weekStartsOn : Fin 7} {days : List PythonDate} {userId : Nat}

/-- What an insert for any user, of the period of one of the days, does. -/
theorem insertOpenTimesheet_spec (userId : Nat) {p : PayPeriod} {d : PythonDate} (db : Database) (user : Nat)
    (hd : d ∈ days) (hp : payPeriod frequency weekStartsOn d = some p) :
    ∃ db' n, insertOpenTimesheet p db user = .ok (db', n) ∧ db'.users = db.users ∧
      db.timesheets ⊆ db'.timesheets ∧ (∃ ts ∈ db'.timesheets, ts.IsOf user p) ∧
      (GeneratedSheets frequency weekStartsOn days userId db.timesheets →
        GeneratedSheets frequency weekStartsOn days userId db'.timesheets) := by
  have hcheck : ¬ (p.last.1 < p.first ∨ 31 < p.last.1 - p.first) := by
    have := payPeriod_length hp
    omega
  unfold insertOpenTimesheet
  rw [if_neg hcheck]
  by_cases hany : (db.timesheets.any fun ts =>
      ts.userId == user && ts.periodStart == p.first.1 && ts.periodEnd == p.last.1) = true
  · rw [if_pos hany]
    simp only [List.any_eq_true, Bool.and_eq_true, beq_iff_eq] at hany
    obtain ⟨ts, hmem, ⟨huser, hstart⟩, hend⟩ := hany
    exact ⟨db, 0, rfl, rfl, fun _ h => h, ⟨ts, hmem, huser, hstart, hend⟩, id⟩
  · rw [if_neg hany]
    simp only [List.any_eq_true, Bool.and_eq_true, beq_iff_eq, not_exists, not_and] at hany
    refine ⟨_, 1, rfl, rfl, List.subset_append_left _ _, ⟨_, List.mem_append_right _ (List.mem_singleton_self _),
      rfl, rfl, rfl⟩, ?_⟩
    rintro ⟨hgenerated, hdistinct⟩
    refine ⟨?_, ?_⟩
    · intro ts hts huser
      rcases List.mem_append.mp hts with hts | hts
      · exact hgenerated ts hts huser
      · obtain rfl := List.mem_singleton.mp hts
        exact ⟨rfl, d, hd, p, hp, huser, rfl, rfl⟩
    · rw [List.filter_append]
      by_cases huser : user = userId
      · subst huser
        simp only [List.filter_singleton, beq_self_eq_true]
        refine List.pairwise_append.mpr ⟨hdistinct, List.pairwise_singleton _ _, ?_⟩
        rintro ts hts new hnew ⟨hstart, hend⟩
        obtain rfl := List.mem_singleton.mp hnew
        obtain ⟨hmem, hown⟩ := List.mem_filter.mp hts
        exact hany ts hmem ⟨by simpa using hown, hstart⟩ hend
      · simpa [huser] using hdistinct

/-- The inserts of a day, for the users one after another. -/
theorem insertOpenTimesheets_spec (userId : Nat) {p : PayPeriod} {d : PythonDate} (hd : d ∈ days)
    (hp : payPeriod frequency weekStartsOn d = some p) (users : List Nat) (db : Database) :
    ∃ db' created, insertOpenTimesheets p users db = .ok (db', created) ∧
      db'.users = db.users ∧ db.timesheets ⊆ db'.timesheets ∧
      (∀ user ∈ users, ∃ ts ∈ db'.timesheets, ts.IsOf user p) ∧
      (GeneratedSheets frequency weekStartsOn days userId db.timesheets →
        GeneratedSheets frequency weekStartsOn days userId db'.timesheets) := by
  unfold insertOpenTimesheets
  generalize 0 = created
  induction users generalizing db created with
  | nil => exact ⟨db, created, rfl, rfl, fun _ h => h, by simp, id⟩
  | cons user users ih =>
    obtain ⟨db₁, n, hinsert, husers, hsub, ⟨ts, hmem, hts⟩, hkeeps⟩ :=
      insertOpenTimesheet_spec userId db user hd hp
    obtain ⟨db', created', hrest, husers', hsub', hall, hkeeps'⟩ := ih db₁ (created + n)
    refine ⟨db', created', ?_, husers'.trans husers, List.Subset.trans hsub hsub', ?_, hkeeps' ∘ hkeeps⟩
    · rw [List.foldlM_cons]
      simp only [hinsert]
      exact hrest
    · intro v hv
      rcases List.mem_cons.mp hv with rfl | hv
      · exact ⟨ts, hsub' hmem, hts⟩
      · exact hall v hv

/-- A day's job, on the timesheets of a user. -/
theorem generateStep_spec (frequency : PayFrequency) (weekStartsOn : Fin 7) (userId : Nat)
    (requiresApproval : Nat → Bool) {today : PythonDate} (hd : today ∈ days) (db : Database) :
    let db' := generateStep frequency weekStartsOn requiresApproval db today
    db'.users = db.users ∧ db.timesheets ⊆ db'.timesheets ∧
      (∀ p, payPeriod frequency weekStartsOn today = some p → ∀ user ∈ approvalUsers requiresApproval db,
        ∃ ts ∈ db'.timesheets, ts.IsOf user p) ∧
      (GeneratedSheets frequency weekStartsOn days userId db.timesheets →
        GeneratedSheets frequency weekStartsOn days userId db'.timesheets) := by
  unfold generateStep generateOpenTimesheets
  cases hp : payPeriod frequency weekStartsOn today with
  | none => exact ⟨rfl, fun _ h => h, by simp, id⟩
  | some p =>
    obtain ⟨db', created, hfold, husers, hsub, hall, hkeeps⟩ :=
      insertOpenTimesheets_spec userId hd hp (approvalUsers requiresApproval db) db
    simp only [Option.map_some, hfold]
    refine ⟨husers, hsub, ?_, hkeeps⟩
    rintro q hq
    obtain rfl := Option.some.inj hq
    exact hall

theorem approvalUsers_congr {requiresApproval : Nat → Bool} {db db' : Database} (h : db'.users = db.users) :
    approvalUsers requiresApproval db' = approvalUsers requiresApproval db := by
  unfold approvalUsers
  rw [h]

/-- The job run on some of the days. -/
theorem generate_run (frequency : PayFrequency) (weekStartsOn : Fin 7) (userId : Nat)
    (requiresApproval : Nat → Bool) {ops : List PythonDate} (hops : ops ⊆ days) (db : Database) :
    let db' := run (generateStep frequency weekStartsOn requiresApproval) db ops
    db.timesheets ⊆ db'.timesheets ∧
      (∀ d ∈ ops, ∀ p, payPeriod frequency weekStartsOn d = some p → ∀ user ∈ approvalUsers requiresApproval db,
        ∃ ts ∈ db'.timesheets, ts.IsOf user p) ∧
      (GeneratedSheets frequency weekStartsOn days userId db.timesheets →
        GeneratedSheets frequency weekStartsOn days userId db'.timesheets) := by
  induction ops generalizing db with
  | nil => exact ⟨fun _ h => h, by simp, id⟩
  | cons today ops ih =>
    obtain ⟨hday, hrest⟩ := List.cons_subset.mp hops
    obtain ⟨husers, hsub, hhas, hkeeps⟩ := generateStep_spec frequency weekStartsOn userId requiresApproval hday db
    obtain ⟨hsub', hhas', hkeeps'⟩ := ih hrest (generateStep frequency weekStartsOn requiresApproval db today)
    rw [approvalUsers_congr husers] at hhas'
    refine ⟨List.Subset.trans hsub hsub', ?_, hkeeps' ∘ hkeeps⟩
    intro d hd p hp user huser
    rcases List.mem_cons.mp hd with rfl | hd
    · obtain ⟨ts, hmem, hts⟩ := hhas p hp user huser
      exact ⟨ts, hsub' hmem, hts⟩
    · exact hhas' d hd p hp user huser

/-- A day is covered by one timesheet of the user. -/
theorem GeneratedSheets.covers_eq {sheets : List Timesheet} {d : PythonDate} {p : PayPeriod}
    (h : GeneratedSheets frequency weekStartsOn days userId sheets)
    (hp : payPeriod frequency weekStartsOn d = some p) (hhas : ∃ ts ∈ sheets, ts.IsOf userId p) :
    ∃ ts, sheets.filter (fun ts => ts.userId == userId && ts.covers d) = [ts] ∧ ts.status = .open ∧
      ts.IsOf userId p := by
  -- a timesheet that covers the day is of the period of the day
  have hperiod : ∀ ts ∈ sheets, ts.userId = userId → ts.covers d = true → ts.IsOf userId p := by
    intro ts hts huser hcovers
    obtain ⟨-, e, -, q, hq, hts'⟩ := h.generated ts hts huser
    have hcontains := payPeriod_contains hp
    simp only [Timesheet.covers, Bool.and_eq_true, decide_eq_true_eq] at hcovers
    obtain ⟨-, hstart, hend⟩ := hts'
    rcases payPeriod_eq_or_disjoint hp hq with rfl | hdisjoint
    · exact ⟨huser, hstart, hend⟩
    · omega
  have hdistinct : (sheets.filter fun ts => ts.userId == userId && ts.covers d).Pairwise fun a b =>
      ¬ (a.periodStart = b.periodStart ∧ a.periodEnd = b.periodEnd) := by
    have hsub := h.distinct.filter (fun ts => ts.covers d)
    rw [List.filter_filter] at hsub
    simpa only [Bool.and_comm] using hsub
  obtain ⟨ts, hmem, hts⟩ := hhas
  have hcovers : ts.covers d = true := by
    have hcontains := payPeriod_contains hp
    simp only [Timesheet.covers, Bool.and_eq_true, decide_eq_true_eq, hts.2.1, hts.2.2]
    exact hcontains
  cases hlist : sheets.filter fun ts => ts.userId == userId && ts.covers d with
  | nil =>
    have := List.filter_eq_nil_iff.mp hlist ts hmem
    simp [hts.1, hcovers] at this
  | cons a rest =>
    have hof : ∀ b ∈ a :: rest, b ∈ sheets ∧ b.IsOf userId p := by
      intro b hb
      rw [← hlist] at hb
      obtain ⟨hb, hown⟩ := List.mem_filter.mp hb
      simp only [Bool.and_eq_true, beq_iff_eq] at hown
      exact ⟨hb, hperiod b hb hown.1 hown.2⟩
    obtain ⟨ha, haof⟩ := hof a List.mem_cons_self
    refine ⟨a, ?_, (h.generated a ha haof.1).1, haof⟩
    cases rest with
    | nil => rfl
    | cons b rest =>
      obtain ⟨-, hbof⟩ := hof b (by simp)
      rw [hlist] at hdistinct
      have hne := (List.pairwise_cons.mp hdistinct).1 b List.mem_cons_self
      exact absurd ⟨haof.2.1.trans hbof.2.1.symm, haof.2.2.trans hbof.2.2.symm⟩ hne

end

/-- Pay periods tile the dates, and the timesheets generated day by day are one for each. -/
structure PayPeriodsTile (frequency : PayFrequency) (weekStartsOn : Fin 7) : Prop where
  contains : ∀ today p, payPeriod frequency weekStartsOn today = some p → p.first.1 ≤ today ∧ today.1 ≤ p.last
  equal_or_disjoint : ∀ d e p q, payPeriod frequency weekStartsOn d = some p →
    payPeriod frequency weekStartsOn e = some q → p = q ∨ p.last.1 < q.first ∨ q.last.1 < p.first
  adjacent : ∀ d e p q, payPeriod frequency weekStartsOn d = some p → e.1 = p.last.1 + 1 →
    payPeriod frequency weekStartsOn e = some q → q.first.1 = p.last.1 + 1
  covered : ∀ requiresApproval db days userId, userId ∈ approvalUsers requiresApproval db →
    (∀ ts ∈ db.timesheets, ts.userId ≠ userId) → ∀ d ∈ days, ∀ p, payPeriod frequency weekStartsOn d = some p →
    ∃ ts, (run (generateStep frequency weekStartsOn requiresApproval) db days).timesheets.filter
        (fun ts => ts.userId == userId && ts.covers d) = [ts] ∧ ts.status = .open ∧ ts.IsOf userId p

/-- **Pay periods tile the dates.** The computation succeeds just for the dates whose pay period exists, and
the periods of these dates tile them, as do the timesheets that are generated day by day. -/
theorem payPeriods_tile (frequency : PayFrequency) (weekStartsOn : Fin 7) :
    (∀ today, (payPeriod frequency weekStartsOn today).isSome ↔
      PayPeriodExists frequency weekStartsOn today) ∧ PayPeriodsTile frequency weekStartsOn := by
  refine ⟨fun today => payPeriod_isSome_iff, ?_, ?_, ?_, ?_⟩
  · exact fun today p => payPeriod_contains
  · exact fun d e p q => payPeriod_eq_or_disjoint
  · exact fun d e p q hp he hq => payPeriod_adjacent hp he hq
  · intro requiresApproval db days userId huser hnone d hd p hp
    obtain ⟨-, hhas, hkeeps⟩ := generate_run frequency weekStartsOn userId requiresApproval
      (List.Subset.refl days) db
    have hbegin : GeneratedSheets frequency weekStartsOn days userId db.timesheets := by
      have hempty : db.timesheets.filter (·.userId == userId) = [] := by
        simpa using hnone
      refine ⟨fun ts hts huser => absurd huser (hnone ts hts), ?_⟩
      rw [hempty]
      exact List.Pairwise.nil
    exact (hkeeps hbegin).covers_eq hp (hhas d hd p hp userId huser)

/-- On 9999-12-31 the pay period of the month, 9999-12-01 to 9999-12-31, is not found. -/
theorem payPeriod_last_month : ¬ ∀ (frequency : PayFrequency) (weekStartsOn : Fin 7) (today : PythonDate),
    ∃ p, payPeriod frequency weekStartsOn today = some p ∧ p.first.1 ≤ today ∧ today.1 ≤ p.last := by
  intro h
  obtain ⟨p, hp, -⟩ := h .monthly 1 ⟨2932896, by decide +kernel⟩
  have hnone : payPeriod .monthly 1 ⟨2932896, by decide +kernel⟩ = none := by decide +kernel
  rw [hnone] at hp
  cases hp

end Dayfinch
