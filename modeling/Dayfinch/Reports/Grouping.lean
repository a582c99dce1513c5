/-
# Dayfinch.Reports.Grouping -- custom reports grouped and collapsed

A custom report shows the rows of `custom_time_report` with the names of their member, project, task and client
and with what was counted in the session. Grouped and collapsed it shows one row for each key that occurs, with
the totals of its rows, their span, their activity weighted by time, and those texts that all of them share.

What holds for every set of rows is proved here: the groups are the rows again, the totals add up, and the
weighted activity lies between those of the rows. Which day the seconds are shown on is the matter of
`Dayfinch.Reports.GroupedDays`.
-/
import Dayfinch.Agent.Automatic
import Dayfinch.Library.Groups
import Dayfinch.Library.Rounding
import Dayfinch.Reports.TimeRows
import Mathlib.Algebra.Order.BigOperators.Group.List
import Mathlib.Data.Finset.Max
import Mathlib.Data.List.Lex

namespace Dayfinch

open Library (groupBy IsGrouping groupBy_isGrouping roundedQuotient le_roundedQuotient roundedQuotient_le)

/-! ## The rows with their names -/

/-- What is counted from an activity record. -/
structure ActivityCount where
  sessionId : Nat
  capturedAt : Int
  activityPercent : Nat
  keyboardEvents : Nat
  mouseClicks : Nat
  /-- What the agent's route stores is at most 100. -/
  percent_le : activityPercent ≤ 100

/-- The tables that a custom report joins: the columns that are shown, by id. -/
structure ReportTables where
  email : Option Nat → Option String
  fullName : Option Nat → Option String
  project : Option Nat → Option String
  task : Option Nat → Option String
  /-- The client of a project. -/
  client : Option Nat → Option String
  activity : List ActivityCount

/-- A row of a custom report. -/
structure CustomRow where
  row : TimeRow
  email : Option String
  fullName : Option String
  project : Option String
  task : Option String
  client : Option String
  activityPercent : Int
  keyboardEvents : Int
  mouseClicks : Int
  deriving DecidableEq, Repr

/-- `COALESCE(ROUND(AVG(..)), 0)` of numbers that are not negative. -/
def roundedAverage (values : List Nat) : Nat := (2 * values.sum + values.length) / (2 * values.length)

/-- The records of a session in the window; a manual entry has none. -/
def ReportTables.stats (tables : ReportTables) (lower upper : Int) (entry : EntryKey) : List ActivityCount :=
  match entry with
  | .session id => tables.activity.filter fun a =>
      a.sessionId == id && lower ≤ a.capturedAt && a.capturedAt < upper
  | .manual _ => []

/-- The columns that are joined to a row. -/
def ReportTables.customRow (tables : ReportTables) (lower upper : Int) (row : TimeRow) : CustomRow :=
  let stats := tables.stats lower upper row.entry
  { row
    email := tables.email row.userId
    fullName := tables.fullName row.userId
    project := tables.project row.projectId
    task := tables.task row.taskId
    client := tables.client row.projectId
    activityPercent := roundedAverage (stats.map (·.activityPercent))
    keyboardEvents := (stats.map (·.keyboardEvents)).sum
    mouseClicks := (stats.map (·.mouseClicks)).sum }

/-- `custom_time_report`, with all of its columns. -/
def customRows (tables : ReportTables) (tie : TimeRow → Nat) (now : Int) (db : Database) (startedAt endedAt : Int)
    (filters : ReportFilters) (limit : Int) : Except Error (List CustomRow) :=
  (customTimeReport tie now db startedAt endedAt filters limit).map
    (List.map (tables.customRow startedAt endedAt))

/-! ## Grouping -/

/-- `CUSTOM_REPORT_GROUPS`, apart from `none`. -/
inductive Grouping
  | date | member | memberDate | project | client | task
  deriving DecidableEq, Repr

/-- A field of a key. -/
inductive KeyField
  | workDate | userId | projectId | client | taskId
  deriving DecidableEq, Repr

/-- `CUSTOM_REPORT_GROUP_KEYS[group_by][0]`. -/
def Grouping.keyFields : Grouping → List KeyField
  | .date => [.workDate]
  | .member => [.userId]
  | .memberDate => [.userId, .workDate]
  | .project => [.projectId]
  | .client => [.client]
  | .task => [.projectId, .taskId]

/-- `work_date`: the date on which the row starts, in UTC. -/
def CustomRow.workDate (r : CustomRow) : String := dateText (dateOf r.row.startedAt)

/-- `str(id or "")`. -/
def idText (id : Option Nat) : String := id.elim "" toString

/-- `str(row.get(field) or "")`. -/
def CustomRow.field (r : CustomRow) : KeyField → String
  | .workDate => r.workDate
  | .userId => idText r.row.userId
  | .projectId => idText r.row.projectId
  | .client => r.client.getD ""
  | .taskId => idText r.row.taskId

/-- The key of a row. -/
def Grouping.key (grouping : Grouping) (r : CustomRow) : List String := grouping.keyFields.map r.field

/-- The rows in the order of their keys and starts; `casefold` is that method of strings. -/
def sortedRows (casefold : String → String) (grouping : Grouping) (rows : List CustomRow) : List CustomRow :=
  rows.mergeSort fun r r' =>
    decide ((grouping.key r).map casefold ++ [isoformat r.row.startedAt] ≤
      (grouping.key r').map casefold ++ [isoformat r'.row.startedAt])

/-- The rows of a collapsed group as one. -/
structure CollapsedRow where
  seconds : Int
  keyboardEvents : Int
  mouseClicks : Int
  startedAt : Option Int
  endedAt : Option Int
  activityPercent : Int
  workDate : String
  email : String
  fullName : String
  project : String
  task : String
  client : String
  timeType : String
  status : String
  deriving DecidableEq, Repr

/-- The text that all rows share, if they do. -/
def sharedText (values : List (Option String)) : String :=
  match ((values.map (·.getD "")).filter (· != "")).dedup with
  | [] => ""
  | [value] => value
  | _ => "Multiple"

/-- `time_type`. -/
def EntrySource.timeType : EntrySource → String
  | .tracked _ => "tracked"
  | .manual _ => "manual"

/-- `status`. -/
def EntrySource.status : EntrySource → String
  | .tracked .active => "active"
  | .tracked .paused => "paused"
  | .tracked .stopped => "stopped"
  | .manual .pending => "pending"
  | .manual .approved => "approved"
  | .manual .rejected => "rejected"

/-- `max(0, int(row.get(field) or 0))`, added up. -/
def additive (field : CustomRow → Int) (rows : List CustomRow) : Int := (rows.map fun r => max 0 (field r)).sum

/-- `max(0, min(100, int(row.get("activity_percent") or 0)))`. -/
def clampedPercent (r : CustomRow) : Int := max 0 (min 100 r.activityPercent)

/-- The activity of the rows, weighted by their seconds. -/
def weightedPercent (rows : List CustomRow) : Int :=
  let totalSeconds := additive (·.row.seconds) rows
  if totalSeconds ≠ 0 then
    roundedQuotient (rows.map fun r => max 0 r.row.seconds * clampedPercent r).sum totalSeconds
  else 0

/-- The row of a group. -/
def collapsedRow (rows : List CustomRow) : CollapsedRow where
  seconds := additive (·.row.seconds) rows
  keyboardEvents := additive (·.keyboardEvents) rows
  mouseClicks := additive (·.mouseClicks) rows
  startedAt := (rows.map (·.row.startedAt)).min?
  endedAt := (rows.filterMap (·.row.endedAt)).max?
  activityPercent := weightedPercent rows
  workDate := sharedText (rows.map fun r => some r.workDate)
  email := sharedText (rows.map (·.email))
  fullName := sharedText (rows.map (·.fullName))
  project := sharedText (rows.map (·.project))
  task := sharedText (rows.map (·.task))
  client := sharedText (rows.map (·.client))
  timeType := sharedText (rows.map fun r => some r.row.source.timeType)
  status := sharedText (rows.map fun r => some r.row.source.status)

/-- The groups of a report. -/
def reportGroups (casefold : String → String) (grouping : Grouping) (rows : List CustomRow) :
    List (List String × List CustomRow) :=
  groupBy grouping.key (sortedRows casefold grouping rows)

/-- `_group_custom_report_rows`, collapsed. -/
def collapsedRows (casefold : String → String) (grouping : Grouping) (rows : List CustomRow) : List CollapsedRow :=
  (reportGroups casefold grouping rows).map fun group => collapsedRow group.2

/-! ## Groups and totals -/

section

variable {casefold : String → String} {grouping : Grouping} {rows : List CustomRow}

/-- **Every row is in exactly one group.** -/
theorem reportGroups_isGrouping : IsGrouping grouping.key rows (reportGroups casefold grouping rows) := by
  have hsorted := groupBy_isGrouping grouping.key (sortedRows casefold grouping rows)
  exact ⟨hsorted.keys, hsorted.elements, hsorted.perm.trans (List.mergeSort_perm _ _)⟩

/-- What a collapsed column adds up to. -/
theorem sum_collapsed (column : CollapsedRow → Int) (field : CustomRow → Int)
    (hcolumn : ∀ group, column (collapsedRow group) = additive field group) (hfield : ∀ r ∈ rows, 0 ≤ field r) :
    ((collapsedRows casefold grouping rows).map column).sum = (rows.map field).sum := by
  have hgroups : IsGrouping grouping.key rows (reportGroups casefold grouping rows) := reportGroups_isGrouping
  have hsum := hgroups.sum fun r => max 0 (field r)
  rw [List.map_congr_left (g := field) fun r hr => max_eq_right (hfield r hr)] at hsum
  unfold collapsedRows
  rw [List.map_map, ← hsum]
  exact congrArg List.sum (List.map_congr_left fun group _ => hcolumn group.2)

/-! ## Weighted activity -/

/-- A weighted sum of numbers that are at least `n`. -/
theorem mul_sum_le {α : Type} {weight value : α → Int} {xs : List α} {n : Int} (hweight : ∀ x ∈ xs, 0 ≤ weight x)
    (hvalue : ∀ x ∈ xs, n ≤ value x) : n * (xs.map weight).sum ≤ (xs.map fun x => weight x * value x).sum := by
  induction xs with
  | nil => simp
  | cons x xs ih =>
    rw [List.map_cons, List.map_cons, List.sum_cons, List.sum_cons]
    have hrest := ih (fun y hy => hweight y (List.mem_cons_of_mem _ hy))
      fun y hy => hvalue y (List.mem_cons_of_mem _ hy)
    have hfirst := mul_le_mul_of_nonneg_left (hvalue x List.mem_cons_self) (hweight x List.mem_cons_self)
    linarith

theorem sum_le_mul {α : Type} {weight value : α → Int} {xs : List α} {n : Int} (hweight : ∀ x ∈ xs, 0 ≤ weight x)
    (hvalue : ∀ x ∈ xs, value x ≤ n) : (xs.map fun x => weight x * value x).sum ≤ n * (xs.map weight).sum := by
  induction xs with
  | nil => simp
  | cons x xs ih =>
    rw [List.map_cons, List.map_cons, List.sum_cons, List.sum_cons]
    have hrest := ih (fun y hy => hweight y (List.mem_cons_of_mem _ hy))
      fun y hy => hvalue y (List.mem_cons_of_mem _ hy)
    have hfirst := mul_le_mul_of_nonneg_left (hvalue x List.mem_cons_self) (hweight x List.mem_cons_self)
    linarith

/-- A percentage as the report shows it. -/
def ShownPercent (r : CustomRow) : Prop := 0 ≤ r.activityPercent ∧ r.activityPercent ≤ 100

theorem ShownPercent.clamped {r : CustomRow} (h : ShownPercent r) : clampedPercent r = r.activityPercent := by
  unfold clampedPercent
  rw [min_eq_right h.2, max_eq_right h.1]

theorem roundedAverage_le {values : List Nat} {n : Nat} (h : ∀ v ∈ values, v ≤ n) : roundedAverage values ≤ n := by
  have hsum : values.sum ≤ values.length * n := List.sum_le_card_nsmul values n h
  unfold roundedAverage
  rcases Nat.eq_zero_or_pos values.length with hzero | hpos
  · rw [hzero]
    simp
  · refine Nat.lt_succ_iff.mp ((Nat.div_lt_iff_lt_mul (by omega)).mpr ?_)
    have hdouble : (n + 1) * (2 * values.length) = 2 * (values.length * n) + 2 * values.length := by ring
    show 2 * values.sum + values.length < (n + 1) * (2 * values.length)
    rw [hdouble]
    omega

theorem shownPercent_customRow (tables : ReportTables) (lower upper : Int) (row : TimeRow) :
    ShownPercent (tables.customRow lower upper row) := by
  refine ⟨Int.natCast_nonneg _, ?_⟩
  have hle : roundedAverage ((tables.stats lower upper row.entry).map (·.activityPercent)) ≤ 100 := by
    refine roundedAverage_le fun v hv => ?_
    obtain ⟨count, _, rfl⟩ := List.mem_map.mp hv
    exact count.percent_le
  show ((roundedAverage ((tables.stats lower upper row.entry).map (·.activityPercent)) : Nat) : Int) ≤ 100
  exact_mod_cast hle

/-- **The weighted activity of a group lies between the least and the greatest of its rows.** -/
theorem weightedPercent_between (hne : rows ≠ []) (hpercent : ∀ r ∈ rows, ShownPercent r)
    (hseconds : ∀ r ∈ rows, 0 < r.row.seconds) :
    ∃ least ∈ rows, ∃ greatest ∈ rows, (∀ r ∈ rows, least.activityPercent ≤ r.activityPercent ∧
        r.activityPercent ≤ greatest.activityPercent) ∧
      least.activityPercent ≤ weightedPercent rows ∧ weightedPercent rows ≤ greatest.activityPercent := by
  have hnonempty : rows.toFinset.Nonempty := List.toFinset_nonempty_iff rows |>.mpr hne
  obtain ⟨least, hleast, hmin⟩ := rows.toFinset.exists_min_image CustomRow.activityPercent hnonempty
  obtain ⟨greatest, hgreatest, hmax⟩ := rows.toFinset.exists_max_image CustomRow.activityPercent hnonempty
  simp only [List.mem_toFinset] at hleast hmin hgreatest hmax
  refine ⟨least, hleast, greatest, hgreatest, fun r hr => ⟨hmin r hr, hmax r hr⟩, ?_⟩
  have hweight : ∀ r ∈ rows, 0 ≤ max 0 r.row.seconds := fun r _ => le_max_left _ _
  have hclamped : ∀ r ∈ rows, clampedPercent r = r.activityPercent := fun r hr => (hpercent r hr).clamped
  have hpos : 0 < additive (·.row.seconds) rows := by
    refine lt_of_lt_of_le (hseconds least hleast) ((le_max_right 0 _).trans ?_)
    exact List.single_le_sum (by simp) _ (List.mem_map.mpr ⟨least, hleast, rfl⟩)
  have hlow := mul_sum_le hweight fun r hr => (hmin r hr).trans (hclamped r hr).ge
  have hhigh := sum_le_mul hweight fun r hr => (hclamped r hr).le.trans (hmax r hr)
  unfold weightedPercent
  dsimp only
  rw [if_pos hpos.ne']
  exact ⟨le_roundedQuotient hpos hlow, roundedQuotient_le hpos hhigh⟩

end

end Dayfinch
