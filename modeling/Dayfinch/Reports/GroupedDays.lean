/-
# Dayfinch.Reports.GroupedDays -- on which days a grouped report shows time

A row is dated by its start in the window of the report and holds all of its time in that window. Grouped by
date, the report therefore shows on a day what the report of that day alone shows exactly when no session and no
manual entry that is reported has time on a later day than the one its row starts on (`OnRowDay`): time is only
ever shown too early, so the first moments of the two reports over the days differ as soon as any is.

`GroupedExact` is what a grouped report promises, and `grouped_report_exact` when it keeps the promise.
-/
import Dayfinch.Agent.FixedSchedule
import Dayfinch.Reports.Additivity
import Dayfinch.Reports.Grouping
import Mathlib.Algebra.Order.BigOperators.Group.Finset
import Mathlib.Algebra.Order.Interval.Finset.SuccPred
import Mathlib.Data.Int.Interval

namespace Dayfinch

open Library (orderBy sum_filter sum_filterMap sum_map_zero sum_map_nonneg sum_map_eq_zero_iff
  part_eq_zero_of_booked IsGrouping)

/-! ## What a grouped report promises -/

/-- The seconds that the collapsed report shows for a day. -/
def dateSeconds (casefold : String → String) (day : Int) (rows : List CustomRow) : Int :=
  (((collapsedRows casefold .date rows).filter (·.workDate == dateText day)).map (·.seconds)).sum

/-- A request for a grouped report of whole days, from the first to the last. -/
structure GroupedRequest where
  tables : ReportTables
  casefold : String → String
  /-- The order of equal keys in each window's report. -/
  tie : Int → Int → TimeRow → Nat
  filters : ReportFilters
  limit : Int
  first : Int
  last : Int

/-- The report of some of the days. -/
def GroupedRequest.rows (r : GroupedRequest) (now : Int) (db : Database) (first last : Int) :
    Except Error (List CustomRow) :=
  customRows r.tables (r.tie first last) now db (startOfDay first) (startOfDay (last + 1)) r.filters r.limit

/-- What a grouped report promises of its groups: every row is in one, the totals are those of the rows, and the
activity lies between those of the rows. -/
structure GroupedTotals (r : GroupedRequest) (now : Int) (db : Database) : Prop where
  partition : ∀ rows, r.rows now db r.first r.last = .ok rows → ∀ grouping : Grouping,
    IsGrouping grouping.key rows (reportGroups r.casefold grouping rows)
  totals : ∀ rows, r.rows now db r.first r.last = .ok rows → ∀ grouping,
    ((collapsedRows r.casefold grouping rows).map (·.seconds)).sum = (rows.map (·.row.seconds)).sum ∧
    ((collapsedRows r.casefold grouping rows).map (·.keyboardEvents)).sum = (rows.map (·.keyboardEvents)).sum ∧
    ((collapsedRows r.casefold grouping rows).map (·.mouseClicks)).sum = (rows.map (·.mouseClicks)).sum
  activity : ∀ rows, r.rows now db r.first r.last = .ok rows → ∀ grouping,
    ∀ group ∈ reportGroups r.casefold grouping rows, ∃ least ∈ group.2, ∃ greatest ∈ group.2,
      (∀ row ∈ group.2, least.activityPercent ≤ row.activityPercent ∧
        row.activityPercent ≤ greatest.activityPercent) ∧
      least.activityPercent ≤ (collapsedRow group.2).activityPercent ∧
      (collapsedRow group.2).activityPercent ≤ greatest.activityPercent

/-- **What a grouped report promises**: that, and that a day shows what its own report shows. -/
structure GroupedExact (r : GroupedRequest) (now : Int) (db : Database) : Prop where
  groups : GroupedTotals r now db
  days : ∀ rows, r.rows now db r.first r.last = .ok rows → ∀ day, r.first ≤ day → day ≤ r.last →
    ∀ alone, r.rows now db day day = .ok alone →
      dateSeconds r.casefold day rows = (alone.map (·.row.seconds)).sum

/-! ## The condition -/

/-- The day on which the row of these spans starts. -/
def rowDay (lower upper : Int) (spans : List (Int × Int)) : Int :=
  dateOf (max (((spans.filter (inWindow lower upper)).map (·.1)).min?.getD lower) lower)

/-- The span begins and ends on the day, as far as it is in the window. -/
def WithinDay (lower upper day : Int) (span : Int × Int) : Prop :=
  startOfDay day ≤ max span.1 lower ∧ max span.1 lower < startOfDay (day + 1) ∧
    startOfDay day < min span.2 upper ∧ min span.2 upper ≤ startOfDay (day + 1)

/-- What the spans have in the window is on the day on which their row starts. -/
def OnRowDay (lower upper : Int) (spans : List (Int × Int)) : Prop :=
  ∀ span ∈ spans, inWindow lower upper span = true → span.1 ≠ span.2 →
    WithinDay lower upper (rowDay lower upper spans) span

/-- The sessions and manual entries that a report admits, by their spans. -/
def reportedSpans (now : Int) (db : Database) (q : Option Nat → Option Nat → Bool) : List (List (Int × Int)) :=
  (db.workSessions.filter fun ws => q ws.userId ws.projectId).map (sessionSpans now db) ++
    (db.manualTimeEntries.filter fun m => joinsManual db m && q (some m.userId) (some m.projectId)).map fun m =>
      [(m.startedAt, m.endedAt)]

/-- **The condition**: no session and no entry that is reported goes on past the day its row starts on. -/
def ReportedOnTheirDays (r : GroupedRequest) (now : Int) (db : Database) : Prop :=
  ∀ spans ∈ reportedSpans now db (r.filters.admits db),
    OnRowDay (startOfDay r.first) (startOfDay (r.last + 1)) spans

/-- The limits are not reached, and the scope is one. -/
structure GroupedRequest.Unreached (r : GroupedRequest) (now : Int) (db : Database) : Prop where
  days : r.first ≤ r.last
  dates : InDateRange r.first ∧ InDateRange r.last
  scope : r.filters.scopeMode ≠ none
  whole : ((admittedRows now db (startOfDay r.first) (startOfDay (r.last + 1)) (r.filters.admits db)).length : Int) ≤
    min (max r.limit 1) 10001
  alone : ∀ day, r.first ≤ day → day ≤ r.last →
    ((admittedRows now db (startOfDay day) (startOfDay (day + 1)) (r.filters.admits db)).length : Int) ≤
      min (max r.limit 1) 10001

/-! ## Sums over the rows of a report -/

section

variable {now : Int} {db : Database} {lower upper : Int}

/-- What the rows that start on some of the days show. -/
theorem sum_admittedRows (q : Option Nat → Option Nat → Bool) (p : Int → Bool) :
    ((admittedRows now db lower upper q).map fun row =>
        if p (dateOf row.startedAt) then row.seconds else 0).sum =
      ((reportedSpans now db q).map fun spans =>
        if p (rowDay lower upper spans) then shownSeconds (windowTotal lower upper spans) else 0).sum := by
  have hzero : shownSeconds 0 = 0 := by decide
  have hsession : ∀ ws, ((trackedRow now db lower upper ws).elim 0 fun row =>
      if (decide (0 < row.seconds) && q row.userId row.projectId) = true then
        if p (dateOf row.startedAt) then row.seconds else 0 else 0) =
      if q ws.userId ws.projectId then
        if p (rowDay lower upper (sessionSpans now db ws)) then
          shownSeconds (windowTotal lower upper (sessionSpans now db ws)) else 0
      else 0 := by
    intro ws
    have htotal : windowTotal lower upper (sessionSpans now db ws) =
        (((sessionSpans now db ws).filter (inWindow lower upper)).map (clipped lower upper)).sum :=
      (sum_filter _ _ _).symm
    unfold trackedRow
    by_cases hempty : ((sessionSpans now db ws).filter (inWindow lower upper)).isEmpty = true
    · rw [if_pos hempty, htotal, List.isEmpty_iff.mp hempty, List.map_nil, List.sum_nil, hzero]
      simp
    · rw [if_neg hempty, htotal]
      unfold shownSeconds rowDay
      simp only [Option.elim_some, Bool.and_eq_true, decide_eq_true_eq]
      split_ifs <;> simp_all
  have hmanual : ∀ m, ((manualRow db lower upper m).elim 0 fun row =>
      if (decide (0 < row.seconds) && q row.userId row.projectId) = true then
        if p (dateOf row.startedAt) then row.seconds else 0 else 0) =
      if (joinsManual db m && q (some m.userId) (some m.projectId)) = true then
        if p (rowDay lower upper [(m.startedAt, m.endedAt)]) then
          shownSeconds (windowTotal lower upper [(m.startedAt, m.endedAt)]) else 0
      else 0 := by
    intro m
    have htotal : windowTotal lower upper [(m.startedAt, m.endedAt)] =
        windowTime lower upper (m.startedAt, m.endedAt) := Int.add_zero _
    rw [htotal]
    unfold manualRow windowTime
    cases hjoins : joinsManual db m with
    | false => simp
    | true =>
      by_cases hin : inWindow lower upper (m.startedAt, m.endedAt) = true
      · rw [hin]
        unfold shownSeconds rowDay
        simp only [Bool.and_self, if_true, Option.elim_some, Bool.and_eq_true, decide_eq_true_eq, Bool.true_and,
          List.filter_cons, hin, List.filter_nil, List.map_cons, List.map_nil, List.min?_singleton,
          Option.getD_some]
        split_ifs <;> simp_all
      · rw [if_neg (by simpa using hin), if_neg hin, hzero]
        simp
  unfold admittedRows windowRows reportedSpans
  rw [sum_filter, List.map_append, List.sum_append, sum_filterMap, sum_filterMap, List.map_append, List.sum_append,
    List.map_map, List.map_map]
  simp only [hsession, hmanual]
  congr 1
  · exact (sum_filter _ _ _).symm
  · exact (sum_filter _ _ _).symm

end

/-! ## What a day shows of spans -/

section

variable {first last day : Int} {spans : List (Int × Int)}

theorem whole_startOfDay (day : Int) : Whole (startOfDay day) := by
  unfold Whole startOfDay days seconds
  omega

/-- A span that keeps to one day has its time there and none on the others. -/
theorem windowTime_day {d : Int} {span : Int × Int} (hfirst : first ≤ day) (hlast : day ≤ last)
    (h : inWindow (startOfDay first) (startOfDay (last + 1)) span = true → span.1 ≠ span.2 →
      WithinDay (startOfDay first) (startOfDay (last + 1)) d span) :
    windowTime (startOfDay day) (startOfDay (day + 1)) span =
      if d = day then windowTime (startOfDay first) (startOfDay (last + 1)) span else 0 := by
  unfold WithinDay at h
  unfold windowTime inWindow clipped at *
  simp only [Bool.and_eq_true, decide_eq_true_eq] at *
  unfold startOfDay days seconds at *
  by_cases hin : span.1 < (last + 1) * 86400 * 1000000 ∧ first * 86400 * 1000000 < span.2
  · by_cases hempty : span.1 = span.2
    · split_ifs <;> omega
    · obtain ⟨h₁, h₂, h₃, h₄⟩ := h hin hempty
      split_ifs <;> omega
  · split_ifs <;> omega

theorem windowTotal_rowDay (hfirst : first ≤ day) (hlast : day ≤ last)
    (h : OnRowDay (startOfDay first) (startOfDay (last + 1)) spans) :
    windowTotal (startOfDay day) (startOfDay (day + 1)) spans =
      if rowDay (startOfDay first) (startOfDay (last + 1)) spans = day then
        windowTotal (startOfDay first) (startOfDay (last + 1)) spans else 0 := by
  have hspan : ∀ span ∈ spans, windowTime (startOfDay day) (startOfDay (day + 1)) span = _ :=
    fun span hmem => windowTime_day hfirst hlast (h span hmem)
  unfold windowTotal
  rw [List.map_congr_left hspan]
  split
  · rfl
  · exact sum_map_zero fun _ _ => rfl

/-- The row starts in the window, and no later than a span that is there. -/
theorem rowDay_spec {lower upper : Int} (hwindow : lower < upper) (spans : List (Int × Int)) :
    dateOf lower ≤ rowDay lower upper spans ∧ rowDay lower upper spans ≤ dateOf (upper - 1) ∧
      ∀ span ∈ spans, inWindow lower upper span = true → rowDay lower upper spans ≤ dateOf (max span.1 lower) := by
  have hmono : ∀ {t t' : Int}, t ≤ t' → dateOf t ≤ dateOf t' := fun h =>
    startOfDay_le_iff.mp ((startOfDay_le_iff.mpr le_rfl).trans h)
  unfold rowDay
  cases hmin : ((spans.filter (inWindow lower upper)).map (·.1)).min? with
  | none =>
    have hempty : spans.filter (inWindow lower upper) = [] := List.map_eq_nil_iff.mp (List.min?_eq_none_iff.mp hmin)
    rw [Option.getD_none, max_self]
    refine ⟨le_rfl, hmono (by omega), fun span hspan hin => ?_⟩
    exact absurd hin (by simpa using List.filter_eq_nil_iff.mp hempty span hspan)
  | some start =>
    obtain ⟨hmem, hleast⟩ := List.min?_eq_some_iff.mp hmin
    obtain ⟨span₀, hspan₀, rfl⟩ := List.mem_map.mp hmem
    have hin₀ := List.of_mem_filter hspan₀
    unfold inWindow at hin₀
    simp only [Bool.and_eq_true, decide_eq_true_eq] at hin₀
    rw [Option.getD_some]
    refine ⟨hmono (le_max_right _ _), hmono (by omega), fun span hspan hin => hmono ?_⟩
    have hle := hleast span.1 (List.mem_map.mpr ⟨span, List.mem_filter.mpr ⟨hspan, hin⟩, rfl⟩)
    exact max_le_max_right lower hle

/-- Whole seconds are shown as they are. -/
theorem shownSeconds_whole {x : Int} (h : Whole x) (hnonneg : 0 ≤ x) : shownSeconds x * 1000000 = x := by
  unfold shownSeconds
  rw [toBigint_whole h]
  unfold Whole at h
  split <;> omega

/-- The days divide the time of spans that do not end before they start. -/
theorem windowTotal_days (h : first ≤ last) (hwhole : ∀ span ∈ spans, WholeSpan span) :
    windowTotal (startOfDay first) (startOfDay (last + 1)) spans =
      ∑ d ∈ Finset.Icc first last, windowTotal (startOfDay d) (startOfDay (d + 1)) spans := by
  induction last, h using Int.leInduction with
  | base => rw [Finset.Icc_self, Finset.sum_singleton]
  | succ last h ih =>
    have hreversed : (spans.map (reversedAt (startOfDay first) (startOfDay (last + 1)) (startOfDay (last + 1 + 1)))).sum = 0 := by
      refine sum_map_zero fun span hspan => ?_
      have hforward := (hwhole span hspan).2.2
      unfold reversedAt
      split <;> omega
    rw [windowTotal_add (startOfDay_lt_startOfDay.mpr (by omega : first < last + 1))
      (startOfDay_lt_startOfDay.mpr (by omega : last + 1 < last + 1 + 1)), hreversed, Int.sub_zero, ih,
      ← Finset.insert_Icc_right_eq_Icc_add_one (by omega), Finset.sum_insert (by simp), Int.add_comm]

theorem windowTime_nonneg {lower upper : Int} {span : Int × Int} (hwindow : lower < upper)
    (hforward : span.1 ≤ span.2) : 0 ≤ windowTime lower upper span := by
  unfold windowTime inWindow clipped
  simp only [Bool.and_eq_true, decide_eq_true_eq]
  split <;> omega

/-- A span has time on the day of each of its instants. -/
theorem windowTime_dateOf_pos {span : Int × Int} {t : Int} (hstart : span.1 ≤ t) (hend : t < span.2) :
    0 < windowTime (startOfDay (dateOf t)) (startOfDay (dateOf t + 1)) span := by
  obtain ⟨hfloor, hnext⟩ := dateOf_eq_iff.mp (rfl : dateOf t = dateOf t)
  have hin : inWindow (startOfDay (dateOf t)) (startOfDay (dateOf t + 1)) span = true := by
    unfold inWindow
    simp only [Bool.and_eq_true, decide_eq_true_eq]
    omega
  unfold windowTime clipped
  rw [if_pos hin]
  omega

/-- Nothing is worked before the day of the row. -/
theorem windowTotal_early (hfirst : first ≤ day)
    (hday : day < rowDay (startOfDay first) (startOfDay (last + 1)) spans) (h : first ≤ last) :
    windowTotal (startOfDay day) (startOfDay (day + 1)) spans = 0 := by
  have hwindow : startOfDay first < startOfDay (last + 1) := startOfDay_lt_startOfDay.mpr (by omega)
  obtain ⟨_, hlate, hrow⟩ := rowDay_spec hwindow spans
  refine sum_map_zero fun span hspan => if_neg fun hin => ?_
  unfold inWindow at hin
  simp only [Bool.and_eq_true, decide_eq_true_eq] at hin
  have hlast : dateOf (startOfDay (last + 1) - 1) = last := dateOf_eq_iff.mpr (by unfold startOfDay days seconds; omega)
  have hfloor : startOfDay first ≤ startOfDay day := by unfold startOfDay days seconds; omega
  have hceil : startOfDay (day + 1) ≤ startOfDay (last + 1) := by unfold startOfDay days seconds; omega
  have hnext : startOfDay first < startOfDay (day + 1) := startOfDay_lt_startOfDay.mpr (by omega)
  have hle := hrow span hspan (by
    unfold inWindow
    simp only [Bool.and_eq_true, decide_eq_true_eq]
    omega)
  have hstart := startOfDay_le_iff.mpr (hday.trans_le hle : day + 1 ≤ _)
  omega

end

/-! ## When every day is right -/

section

variable {first last : Int} {reported : List (List (Int × Int))}

/-- The grouped report and the reports of the days show the same of what is reported. -/
def DaysAgree (first last : Int) (reported : List (List (Int × Int))) : Prop :=
  ∀ day ∈ Finset.Icc first last,
    (reported.map fun spans => if rowDay (startOfDay first) (startOfDay (last + 1)) spans = day then
        shownSeconds (windowTotal (startOfDay first) (startOfDay (last + 1)) spans) else 0).sum =
      (reported.map fun spans => shownSeconds (windowTotal (startOfDay day) (startOfDay (day + 1)) spans)).sum

theorem daysAgree_of_onRowDay
    (h : ∀ spans ∈ reported, OnRowDay (startOfDay first) (startOfDay (last + 1)) spans) :
    DaysAgree first last reported := by
  intro day hday
  obtain ⟨hfirst, hlast⟩ := Finset.mem_Icc.mp hday
  refine congrArg List.sum (List.map_congr_left fun spans hspans => ?_)
  have hzero : shownSeconds 0 = 0 := by decide
  rw [windowTotal_rowDay hfirst hlast (h spans hspans)]
  split
  · rfl
  · exact hzero.symm

/-- **The books of the days are right only if nothing goes on past the day of its row.** -/
theorem onRowDay_of_daysAgree (hdays : first ≤ last) (hwhole : ∀ spans ∈ reported, ∀ span ∈ spans, WholeSpan span)
    (h : DaysAgree first last reported) :
    ∀ spans ∈ reported, OnRowDay (startOfDay first) (startOfDay (last + 1)) spans := by
  have hwindow : startOfDay first < startOfDay (last + 1) := startOfDay_lt_startOfDay.mpr (by omega)
  have hday : ∀ day, startOfDay day < startOfDay (day + 1) := fun day => startOfDay_lt_startOfDay.mpr (by omega)
  have hlast : dateOf (startOfDay (last + 1) - 1) = last :=
    dateOf_eq_iff.mpr (by unfold startOfDay days seconds; omega)
  have hfirst : dateOf (startOfDay first) = first := dateOf_eq_iff.mpr ⟨le_rfl, hday first⟩
  have hshown : ∀ spans ∈ reported, ∀ lower upper, Whole lower → Whole upper → lower < upper →
      shownSeconds (windowTotal lower upper spans) * 1000000 = windowTotal lower upper spans := by
    intro spans hspans lower upper hlower hupper hlt
    obtain ⟨hw, hnonneg⟩ := windowTotal_whole hlower hupper hlt (hwhole spans hspans)
    exact shownSeconds_whole hw hnonneg
  have hzero : ∀ spans ∈ reported, ∀ day ∈ Finset.Icc first last,
      rowDay (startOfDay first) (startOfDay (last + 1)) spans ≠ day →
      shownSeconds (windowTotal (startOfDay day) (startOfDay (day + 1)) spans) = 0 := by
    refine part_eq_zero_of_booked ?_ ?_ ?_ ?_ h
    · intro spans _ day _
      unfold shownSeconds
      split <;> omega
    · intro spans _ day hmem hearly
      rw [windowTotal_early (Finset.mem_Icc.mp hmem).1 hearly hdays]
      rfl
    · intro spans hspans
      have hsum := windowTotal_days hdays (hwhole spans hspans)
      rw [← hshown spans hspans _ _ (whole_startOfDay _) (whole_startOfDay _) hwindow,
        Finset.sum_congr rfl fun day _ =>
          (hshown spans hspans _ _ (whole_startOfDay day) (whole_startOfDay (day + 1)) (hday day)).symm,
        ← Finset.sum_mul] at hsum
      exact Int.eq_of_mul_eq_mul_right (by decide) hsum
    · intro spans _
      obtain ⟨hlow, hhigh, _⟩ := rowDay_spec hwindow spans
      rw [hfirst] at hlow
      rw [hlast] at hhigh
      exact Finset.mem_Icc.mpr ⟨hlow, hhigh⟩
  intro spans hspans span hspan hin hne
  have hforward := (hwhole spans hspans span hspan).2.2
  unfold inWindow at hin
  simp only [Bool.and_eq_true, decide_eq_true_eq] at hin
  -- the span has time on the days of its first and its last instant in the window
  have howned : ∀ t, max span.1 (startOfDay first) ≤ t → t < min span.2 (startOfDay (last + 1)) →
      rowDay (startOfDay first) (startOfDay (last + 1)) spans = dateOf t := by
    intro t hlow hhigh
    by_contra hother
    have hmem : dateOf t ∈ Finset.Icc first last :=
      Finset.mem_Icc.mpr ⟨startOfDay_le_iff.mp (by omega), by
        have hlt : ¬ startOfDay (last + 1) ≤ t := by omega
        rw [startOfDay_le_iff] at hlt
        omega⟩
    have htotal := hshown spans hspans _ _ (whole_startOfDay _) (whole_startOfDay _) (hday (dateOf t))
    rw [hzero spans hspans _ hmem hother, Int.zero_mul] at htotal
    have hnone := (sum_map_eq_zero_iff fun other hmem' =>
      windowTime_nonneg (hday (dateOf t)) (hwhole spans hspans other hmem').2.2).mp htotal.symm span hspan
    have hpos : 0 < windowTime (startOfDay (dateOf t)) (startOfDay (dateOf t + 1)) span :=
      windowTime_dateOf_pos (by omega) (by omega)
    omega
  have hstart := howned (max span.1 (startOfDay first)) le_rfl (by omega)
  have hend := howned (min span.2 (startOfDay (last + 1)) - 1) (by omega) (by omega)
  obtain ⟨hs, hs'⟩ := dateOf_eq_iff.mp hstart.symm
  obtain ⟨he, he'⟩ := dateOf_eq_iff.mp hend.symm
  exact ⟨hs, hs', by omega, by omega⟩

end

/-! ## The report of a day, and the day of a report -/

section

variable {r : GroupedRequest} {now : Int} {db : Database}

theorem dateText_ne_empty (day : Int) : dateText day ≠ "" := by
  intro h
  have hdash : '-' ∈ (dateText day).toList := by
    unfold dateText
    simp
  rw [h] at hdash
  exact absurd hdash (by decide)

/-- The date of a collapsed row is that of its rows. -/
theorem collapsedRow_workDate {rows : List CustomRow} {date : String} (hne : rows ≠ []) (hdate : date ≠ "")
    (h : ∀ row ∈ rows, row.workDate = date) : (collapsedRow rows).workDate = date := by
  have hall : (rows.map fun row => some row.workDate).map (·.getD "") = List.replicate rows.length date := by
    rw [List.map_map]
    exact List.eq_replicate_iff.mpr ⟨List.length_map _, fun text htext => by
      obtain ⟨row, hrow, rfl⟩ := List.mem_map.mp htext
      exact h row hrow⟩
  have hlength : rows.length ≠ 0 := fun h => hne (List.length_eq_zero_iff.mp h)
  show sharedText (rows.map fun row => some row.workDate) = date
  unfold sharedText
  rw [hall, List.filter_eq_self.mpr fun text htext => by
    rw [List.eq_of_mem_replicate htext]
    simpa using hdate, List.replicate_dedup hlength]

/-- What is shown for a day, by the rows of that date. -/
theorem dateSeconds_eq (casefold : String → String) (day : Int) (rows : List CustomRow) :
    dateSeconds casefold day rows =
      (rows.map fun row => if dateText (dateOf row.row.startedAt) == dateText day then max 0 row.row.seconds
        else 0).sum := by
  have hgroups : IsGrouping Grouping.date.key rows (reportGroups casefold .date rows) := reportGroups_isGrouping
  have hkey := hgroups.sum_key [dateText day] fun row => max 0 row.row.seconds
  have hrows : ∀ row : CustomRow, Grouping.date.key row = [dateText day] ↔
      (dateText (dateOf row.row.startedAt) == dateText day) = true := by
    intro row
    rw [beq_iff_eq]
    exact List.cons_eq_cons.trans (and_iff_left rfl)
  simp only [hrows] at hkey
  unfold dateSeconds collapsedRows
  rw [sum_filter, List.map_map, ← hkey]
  refine congrArg List.sum (List.map_congr_left fun group hgroup => ?_)
  obtain ⟨hne, helements⟩ := hgroups.elements group hgroup
  obtain ⟨row, hrow⟩ := List.exists_mem_of_ne_nil _ hne
  have hdate : (collapsedRow group.2).workDate = row.workDate := by
    refine collapsedRow_workDate hne (dateText_ne_empty _) fun other hother => ?_
    exact (List.cons_eq_cons.mp ((helements other hother).trans (helements row hrow).symm)).1
  show (if ((collapsedRow group.2).workDate == dateText day) = true then _ else _) = _
  rw [hdate, ← helements row hrow]
  have hiff : Grouping.date.key row = [dateText day] ↔ (row.workDate == dateText day) = true := hrows row
  by_cases h : Grouping.date.key row = [dateText day]
  · rw [if_pos h, if_pos (hiff.mp h)]
    rfl
  · rw [if_neg h, if_neg (mt hiff.mpr h)]

/-- The rows of the whole report. -/
theorem GroupedRequest.rows_eq {first last : Int} (hscope : r.filters.scopeMode ≠ none)
    (hlimit : ((admittedRows now db (startOfDay first) (startOfDay (last + 1)) (r.filters.admits db)).length : Int) ≤
      min (max r.limit 1) 10001) :
    r.rows now db first last = .ok ((orderBy (fun row => -row.startedAt) (r.tie first last)
      (admittedRows now db (startOfDay first) (startOfDay (last + 1)) (r.filters.admits db))).map
        (r.tables.customRow (startOfDay first) (startOfDay (last + 1)))) := by
  unfold GroupedRequest.rows customRows
  rw [customTimeReport_eq _ hscope hlimit]
  rfl

theorem pos_of_mem_admittedRows {lower upper : Int} {q : Option Nat → Option Nat → Bool} {row : TimeRow}
    (h : row ∈ admittedRows now db lower upper q) : 0 < row.seconds := by
  have hadmitted := List.of_mem_filter h
  simp only [Bool.and_eq_true, decide_eq_true_eq] at hadmitted
  exact hadmitted.1

/-- A sum over the rows of a report, without their order and their names. -/
theorem sum_report {lower upper : Int} {first last : Int} (f : TimeRow → Int) (rows : List TimeRow) :
    (((orderBy (fun row => -row.startedAt) (r.tie first last) rows).map (r.tables.customRow lower upper)).map
      fun row => f row.row).sum = (rows.map f).sum := by
  rw [List.map_map]
  exact ((List.perm_insertionSort _ _).map f).sum_eq

theorem GroupedRequest.Unreached.groupedTotals (h : r.Unreached now db) : GroupedTotals r now db := by
  have hpositive : ∀ rows, r.rows now db r.first r.last = .ok rows → ∀ row ∈ rows,
      0 < row.row.seconds ∧ ShownPercent row ∧ 0 ≤ row.keyboardEvents ∧ 0 ≤ row.mouseClicks := by
    intro rows hrows row hrow
    rw [r.rows_eq h.scope h.whole] at hrows
    cases hrows
    obtain ⟨source, hsource, rfl⟩ := List.mem_map.mp hrow
    exact ⟨pos_of_mem_admittedRows (Library.mem_orderBy.mp hsource), shownPercent_customRow _ _ _ _,
      sum_map_nonneg fun _ _ => Int.natCast_nonneg _, sum_map_nonneg fun _ _ => Int.natCast_nonneg _⟩
  refine ⟨fun rows _ grouping => reportGroups_isGrouping, fun rows hrows grouping => ⟨?_, ?_, ?_⟩,
    fun rows hrows grouping group hgroup => ?_⟩
  · exact sum_collapsed _ _ (fun _ => rfl) fun row hrow => (hpositive rows hrows row hrow).1.le
  · exact sum_collapsed _ _ (fun _ => rfl) fun row hrow => (hpositive rows hrows row hrow).2.2.1
  · exact sum_collapsed _ _ (fun _ => rfl) fun row hrow => (hpositive rows hrows row hrow).2.2.2
  · have hgroups : IsGrouping grouping.key rows (reportGroups r.casefold grouping rows) := reportGroups_isGrouping
    have hmem : ∀ row ∈ group.2, row ∈ rows := fun row hrow =>
      hgroups.perm.subset (List.mem_flatMap.mpr ⟨group, hgroup, hrow⟩)
    exact weightedPercent_between (hgroups.elements group hgroup).1
      (fun row hrow => (hpositive rows hrows row (hmem row hrow)).2.1)
      fun row hrow => (hpositive rows hrows row (hmem row hrow)).1

/-- What a day shows, in the report of all of the days. -/
theorem dateSeconds_report (h : r.Unreached now db) {rows : List CustomRow}
    (hrows : r.rows now db r.first r.last = .ok rows) {day : Int} (hfirst : r.first ≤ day) (hlast : day ≤ r.last) :
    dateSeconds r.casefold day rows =
      ((reportedSpans now db (r.filters.admits db)).map fun spans =>
        if rowDay (startOfDay r.first) (startOfDay (r.last + 1)) spans = day then
          shownSeconds (windowTotal (startOfDay r.first) (startOfDay (r.last + 1)) spans) else 0).sum := by
  have hrange : ∀ d, r.first ≤ d → d ≤ r.last → InDateRange d := fun d hlow hhigh =>
    ⟨h.dates.1.1.trans hlow, hhigh.trans_lt h.dates.2.2⟩
  have hwindow : startOfDay r.first < startOfDay (r.last + 1) :=
    startOfDay_lt_startOfDay.mpr (Int.lt_add_one_of_le h.days)
  have hend : dateOf (startOfDay (r.last + 1) - 1) = r.last :=
    dateOf_eq_iff.mpr (by unfold startOfDay days seconds; omega)
  have hstart : dateOf (startOfDay r.first) = r.first :=
    dateOf_eq_iff.mpr ⟨le_rfl, startOfDay_lt_startOfDay.mpr (by omega)⟩
  rw [r.rows_eq h.scope h.whole] at hrows
  cases hrows
  rw [dateSeconds_eq, sum_report fun row =>
    if dateText (dateOf row.startedAt) == dateText day then max 0 row.seconds else 0]
  rw [List.map_congr_left (g := fun row : TimeRow =>
    if dateText (dateOf row.startedAt) == dateText day then row.seconds else 0) fun row hrow => by
      rw [max_eq_right (pos_of_mem_admittedRows hrow).le],
    sum_admittedRows (r.filters.admits db) fun d => dateText d == dateText day]
  refine congrArg List.sum (List.map_congr_left fun spans _ => ?_)
  obtain ⟨hlow, hhigh, _⟩ := rowDay_spec hwindow spans
  rw [hstart] at hlow
  rw [hend] at hhigh
  have hiff : (dateText (rowDay (startOfDay r.first) (startOfDay (r.last + 1)) spans) == dateText day) = true ↔
      rowDay (startOfDay r.first) (startOfDay (r.last + 1)) spans = day := by
    rw [beq_iff_eq]
    exact ⟨dateText_inj (hrange _ hlow hhigh) (hrange _ hfirst hlast), congrArg dateText⟩
  simp only [hiff]

/-- What the report of a day shows. -/
theorem sum_alone (h : r.Unreached now db) {day : Int} (hfirst : r.first ≤ day) (hlast : day ≤ r.last)
    {alone : List CustomRow} (halone : r.rows now db day day = .ok alone) :
    (alone.map (·.row.seconds)).sum = ((reportedSpans now db (r.filters.admits db)).map fun spans =>
      shownSeconds (windowTotal (startOfDay day) (startOfDay (day + 1)) spans)).sum := by
  rw [r.rows_eq h.scope (h.alone day hfirst hlast)] at halone
  cases halone
  rw [sum_report (·.seconds)]
  exact sum_admittedRows (r.filters.admits db) fun _ => true

theorem GroupedRequest.Unreached.groupedExact_iff (h : r.Unreached now db) :
    GroupedExact r now db ↔ DaysAgree r.first r.last (reportedSpans now db (r.filters.admits db)) := by
  constructor
  · intro hexact day hday
    obtain ⟨hfirst, hlast⟩ := Finset.mem_Icc.mp hday
    have hrows := r.rows_eq h.scope h.whole
    have halone := r.rows_eq h.scope (h.alone day hfirst hlast)
    have hdays := hexact.days _ hrows day hfirst hlast _ halone
    rwa [dateSeconds_report h hrows hfirst hlast, sum_alone h hfirst hlast halone] at hdays
  · intro hagree
    refine ⟨h.groupedTotals, fun rows hrows day hfirst hlast alone halone => ?_⟩
    rw [dateSeconds_report h hrows hfirst hlast, sum_alone h hfirst hlast halone]
    exact hagree day (Finset.mem_Icc.mpr ⟨hfirst, hlast⟩)

end

/-! ## Grouped by date -/

/-- **Grouped reports are exact where nothing that is reported goes on past the day its row starts on**; between
whole seconds, only there. What does not concern days always holds. -/
theorem grouped_report_exact (r : GroupedRequest) (now : Int) (db : Database) (h : r.Unreached now db) :
    GroupedTotals r now db ∧ (ReportedOnTheirDays r now db → GroupedExact r now db) ∧
      ((∀ spans ∈ reportedSpans now db (r.filters.admits db), ∀ span ∈ spans, WholeSpan span) →
        (GroupedExact r now db ↔ ReportedOnTheirDays r now db)) := by
  have henough : ReportedOnTheirDays r now db → GroupedExact r now db := fun hdays =>
    h.groupedExact_iff.mpr (daysAgree_of_onRowDay hdays)
  refine ⟨h.groupedTotals, henough, fun hwhole => ⟨fun hexact => ?_, henough⟩⟩
  exact onRowDay_of_daysAgree h.days hwhole (h.groupedExact_iff.mp hexact)

/-- A report of the first two days, about one member's two hours on one project. -/
def twoDayReport : GroupedRequest where
  tables :=
    { email := fun _ => none, fullName := fun _ => none, project := fun _ => none, task := fun _ => none
      client := fun _ => none, activity := [] }
  casefold := id
  tie := fun _ _ _ => 0
  filters := { userId := none, projectId := none, scopeUserId := none, scopeMode := some .all }
  limit := 10000
  first := 0
  last := 1

theorem twoDayReport_unreached (startedAt endedAt : Int) : twoDayReport.Unreached 0 (manualWork startedAt endedAt) := by
  have hlength : ∀ lower upper, ((admittedRows 0 (manualWork startedAt endedAt) lower upper
      (twoDayReport.filters.admits (manualWork startedAt endedAt))).length : Int) ≤ min (max twoDayReport.limit 1) 10001 := by
    intro lower upper
    have hone : (admittedRows 0 (manualWork startedAt endedAt) lower upper
        (twoDayReport.filters.admits (manualWork startedAt endedAt))).length ≤ 1 := by
      refine (List.length_filter_le _ _).trans ?_
      unfold windowRows manualWork
      rw [List.length_append, List.filterMap_nil, List.length_nil, Nat.zero_add]
      exact List.length_filterMap_le _ _
    have hlimit : min (max twoDayReport.limit 1) 10001 = 10000 := by decide
    rw [hlimit]
    omega
  exact ⟨by decide, by decide, by decide, hlength _ _, fun day _ _ => hlength _ _⟩

theorem grouped_report_exact_twoDayReport :
    GroupedExact twoDayReport 0 (manualWork (minutes (60 * 23)) (minutes (60 * 24))) :=
  (grouped_report_exact twoDayReport 0 (manualWork (minutes (60 * 23)) (minutes (60 * 24)))
    (twoDayReport_unreached _ _)).2.1 (by
      intro spans hspans
      rw [show reportedSpans 0 (manualWork (minutes (60 * 23)) (minutes (60 * 24)))
        (twoDayReport.filters.admits (manualWork (minutes (60 * 23)) (minutes (60 * 24)))) =
          [[(minutes (60 * 23), minutes (60 * 24))]] by decide, List.mem_singleton] at hspans
      rw [hspans]
      intro span hspan _ _
      rw [List.mem_singleton.mp hspan]
      exact ⟨by decide, by decide, by decide, by decide⟩)

/-- Two hours around a midnight are shown on the day before it. -/
theorem midnight_shown_early :
    ¬ ∀ (r : GroupedRequest) (now : Int) (db : Database), r.Unreached now db →
      (∀ spans ∈ reportedSpans now db (r.filters.admits db), ∀ span ∈ spans, WholeSpan span) →
      GroupedExact r now db := by
  intro h
  have hspans : reportedSpans 0 (manualWork (minutes (60 * 23)) (minutes (60 * 25)))
      (twoDayReport.filters.admits (manualWork (minutes (60 * 23)) (minutes (60 * 25)))) =
        [[(minutes (60 * 23), minutes (60 * 25))]] := by decide
  have hunreached : twoDayReport.Unreached 0 (manualWork (minutes (60 * 23)) (minutes (60 * 25))) := twoDayReport_unreached _ _
  have hexact := h twoDayReport 0 (manualWork (minutes (60 * 23)) (minutes (60 * 25))) hunreached (by
    intro spans hmem span hspan
    rw [hspans, List.mem_singleton] at hmem
    rw [hmem, List.mem_singleton] at hspan
    rw [hspan]
    exact ⟨rfl, rfl, by decide⟩)
  have hdays := hunreached.groupedExact_iff.mp hexact 0 (Finset.mem_Icc.mpr (by decide))
  rw [hspans] at hdays
  exact absurd hdays (by decide)

end Dayfinch
