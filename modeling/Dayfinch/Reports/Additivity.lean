/-
# Dayfinch.Reports.Additivity -- when the reports of two adjacent windows add up

For instants a < b < c the reports over [a, b) and [b, c) should add up to the one over [a, c), and the report
for QuickBooks should put every instant into one local day. Clipping divides the time of every segment but a
reversed one around b, so what keeps the reports from adding up is little: the rounding of each row or piece
where the bounds are no whole seconds, segments that end before they start, and the repeated hour at midnight.
PostgreSQL takes a repeated midnight for the later of its two instants, but the clocks show the new date from the
earlier one on; what starts between the two belongs to a day that has not begun, and is lost.

`ReportsAddUp` is the exact condition, on the fractions of seconds in the windows and on the local days, and
`reports_addUp_iff` the equivalence.
-/
import Dayfinch.Approval.Additive
import Dayfinch.Reports.TimeRows
import Mathlib.Data.List.Dedup

namespace Dayfinch

open Library (orderBy UniqueKey sum_filter sum_filterMap sum_map_zero)

/-! ## The property -/

/-- The seconds of a session or an entry. -/
def entrySeconds (entry : EntryKey) (rows : List TimeRow) : Int :=
  ((rows.filter (·.entry == entry)).map (·.seconds)).sum

/-- The seconds of a user, project, task, note and local day. -/
def keySeconds (key : QuickbooksKey) (rows : List QuickbooksRow) : Int :=
  ((rows.filter (·.key == key)).map (·.seconds)).sum

/-- The seconds of the first two results are those of the third. -/
def AddUp {ρ : Type} (count : List ρ → Int) (first second whole : Except Error (List ρ)) : Prop :=
  ∀ x y z, first = .ok x → second = .ok y → whole = .ok z → count x + count y = count z

/-- An instant of an entry in a window is in exactly one of the local days that the entry is cut into. -/
def EachInOneDay (zone : ReportZone) (lower upper : Int) (e : TimeEntry) : Prop :=
  ∀ t, max e.startedAt lower ≤ t → t < min e.endedAt upper →
    ∃! day, day ∈ pieceDays zone lower upper e ∧ zone.midnight day ≤ t ∧ t < zone.midnight (day + 1)

/-- A request for each of the three reports, over the windows that three instants make. -/
structure ReportRequest where
  a : Int
  b : Int
  c : Int
  timeLimit : Option Int
  filters : ReportFilters
  customLimit : Int
  zone : ReportZone
  userId : Option Nat
  projectId : Option Nat
  quickbooksLimit : Int

/-- The two adjacent windows, and the whole. -/
def ReportRequest.windows (r : ReportRequest) : List (Int × Int) := [(r.a, r.b), (r.b, r.c), (r.a, r.c)]

/-- The seconds of three windows add up. -/
def ReportRequest.Additive {ρ : Type} (r : ReportRequest) (count : List ρ → Int)
    (report : Int → Int → Except Error (List ρ)) : Prop :=
  AddUp count (report r.a r.b) (report r.b r.c) (report r.a r.c)

/-- The seconds of every session and every manual entry add up. -/
def ReportRequest.EntriesAdditive (r : ReportRequest) (db : Database)
    (report : Int → Int → Except Error (List TimeRow)) : Prop :=
  (∀ ws ∈ db.workSessions, r.Additive (entrySeconds (.session ws.id)) report) ∧
    ∀ m ∈ db.manualTimeEntries, r.Additive (entrySeconds (.manual m.id)) report

/-- The rows of a window that have seconds and are admitted. -/
def admittedRows (now : Int) (db : Database) (lower upper : Int) (q : Option Nat → Option Nat → Bool) :
    List TimeRow :=
  (windowRows now db lower upper).filter fun row => 0 < row.seconds && q row.userId row.projectId

/-- The limits are valid and not reached, and the scope is one. -/
structure ReportRequest.Unreached (r : ReportRequest) (now : Int) (db : Database) : Prop where
  timeValid : ∀ limit ∈ r.timeLimit, 1 ≤ limit ∧ limit ≤ 100001
  time : ∀ window ∈ r.windows, ∀ limit ∈ r.timeLimit,
    ((admittedRows now db window.1 window.2 fun _ _ => true).length : Int) ≤ limit
  scope : r.filters.scopeMode ≠ none
  custom : ∀ window ∈ r.windows,
    ((admittedRows now db window.1 window.2 (r.filters.admits db)).length : Int) ≤
      min (max r.customLimit 1) 10001
  quickbooksValid : 1 ≤ r.quickbooksLimit ∧ r.quickbooksLimit ≤ 10001
  quickbooks : ∀ window ∈ r.windows,
    ((quickbooksRows r.zone db window.1 window.2 false r.userId r.projectId).length : Int) ≤
      r.quickbooksLimit

/-- The order of equal keys in each window's report. -/
structure ReportTies where
  time : Int → Int → TimeRow → Nat
  custom : Int → Int → TimeRow → Nat
  quickbooks : Int → Int → QuickbooksRow → Nat

/-- **The property**: the windows are additive in each report, and in each window the report for QuickBooks
puts every instant of every entry into exactly one local day. -/
structure WindowsAdditive (ties : ReportTies) (r : ReportRequest) (now : Int) (db : Database) : Prop where
  time : r.EntriesAdditive db fun lower upper =>
    timeReport (ties.time lower upper) now db (some lower) (some upper) r.timeLimit
  custom : r.EntriesAdditive db fun lower upper =>
    customTimeReport (ties.custom lower upper) now db lower upper r.filters r.customLimit
  quickbooks : ∀ key, r.Additive (keySeconds key) fun lower upper =>
    quickbooksTimeRows (ties.quickbooks lower upper) (some r.zone) db lower upper false r.userId r.projectId
      r.quickbooksLimit
  days : ∀ window ∈ r.windows, ∀ e ∈ scopedEntries db r.userId r.projectId,
    EachInOneDay r.zone window.1 window.2 e

/-! ## The condition -/

/-- What a row of this much time adds to a report: its seconds, if there are any. -/
def shownSeconds (micros : Int) : Int := if 0 < toBigint micros then toBigint micros else 0

/-- The time of a span in a window; it is negative where the span ends before it starts. -/
def windowTime (lower upper : Int) (span : Int × Int) : Int :=
  if inWindow lower upper span then clipped lower upper span else 0

/-- The time of spans in a window. -/
def windowTotal (lower upper : Int) (spans : List (Int × Int)) : Int :=
  (spans.map (windowTime lower upper)).sum

/-- The length of a span that ends before it starts, inside the whole window and around its cut. -/
def reversedAt (a b c : Int) (span : Int × Int) : Int :=
  if a < span.2 ∧ span.2 ≤ b ∧ b ≤ span.1 ∧ span.1 < c then span.1 - span.2 else 0

/-- The fractions of a second of two times are rounded up both, and their sum once. -/
def makesSecond (x y : Int) : Bool :=
  500000 ≤ x % 1000000 && 500000 ≤ y % 1000000 && x % 1000000 + y % 1000000 < 1500000

/-- The fractions of a second of two times are rounded down both, and their sum up. -/
def losesSecond (x y : Int) : Bool :=
  x % 1000000 < 500000 && y % 1000000 < 500000 && 500000 ≤ x % 1000000 + y % 1000000

/-- The fractions of a second of two times make and lose no second. -/
def RoundsAlike (x y : Int) : Prop := makesSecond x y = false ∧ losesSecond x y = false

/-- What reversed spans take from the whole window and not from its two parts: those around the cut, and those
that take a window below zero. -/
def reversedTime (a b c : Int) (spans : List (Int × Int)) : Int :=
  (spans.map (reversedAt a b c)).sum +
    max 0 (-windowTotal a b spans) + max 0 (-windowTotal b c spans) -
    max 0 ((spans.map (reversedAt a b c)).sum - windowTotal a b spans - windowTotal b c spans)

/-- Two times and what is taken from their sum: their fractions of a second make none, and what is taken passes
the last half of a second once where they lose one, and never else. -/
def RoundsTogether (x y taken : Int) : Prop :=
  makesSecond x y = false ∧
    if losesSecond x y then
      (x + y + 500000) % 1000000 < taken ∧ taken ≤ (x + y + 500000) % 1000000 + 1000000
    else taken ≤ (x + y + 500000) % 1000000

/-- The fractions of a second of spans in two adjacent windows, and their reversed time, let them add up. -/
def SpansAddUp (a b c : Int) (spans : List (Int × Int)) : Prop :=
  RoundsTogether (max 0 (windowTotal a b spans)) (max 0 (windowTotal b c spans)) (reversedTime a b c spans)

/-- The local day of the entry's first instant in the window has begun by then. -/
def StartsInItsDay (zone : ReportZone) (lower upper : Int) (e : TimeEntry) : Prop :=
  max e.startedAt lower < min e.endedAt upper →
    zone.midnight (zone.dayOf (max e.startedAt lower)) ≤ max e.startedAt lower

/-- The time of an entry in a window and a local day. -/
def entryDayTime (zone : ReportZone) (lower upper day : Int) (e : TimeEntry) : Int :=
  max 0 (pieceMicros zone lower upper e day)

/-- The entry has pieces under this key. -/
def TimeEntry.under (key : QuickbooksKey) (e : TimeEntry) : Bool := e.key key.workDate == key

/-- **The condition**: of every session and manual entry, the fractions of a second that the two windows hold
make and lose no second, and no time is reversed, but for what the fractions make up for; every entry starts in
its local day, in each of the three windows; and under every key as many pieces make a second as lose one. -/
structure ReportsAddUp (r : ReportRequest) (now : Int) (db : Database) : Prop where
  sessions : ∀ ws ∈ db.workSessions, SpansAddUp r.a r.b r.c (sessionSpans now db ws)
  manual : ∀ m ∈ db.manualTimeEntries, joinsManual db m = true →
    SpansAddUp r.a r.b r.c [(m.startedAt, m.endedAt)]
  days : ∀ window ∈ r.windows, ∀ e ∈ scopedEntries db r.userId r.projectId,
    StartsInItsDay r.zone window.1 window.2 e
  rounding : ∀ key,
    ((scopedEntries db r.userId r.projectId).filter (·.under key)).countP (fun e =>
      makesSecond (entryDayTime r.zone r.a r.b key.workDate e) (entryDayTime r.zone r.b r.c key.workDate e)) =
    ((scopedEntries db r.userId r.projectId).filter (·.under key)).countP (fun e =>
      losesSecond (entryDayTime r.zone r.a r.b key.workDate e) (entryDayTime r.zone r.b r.c key.workDate e))

/-! ## Sums over rows -/

theorem entrySeconds_eq (entry : EntryKey) (rows : List TimeRow) (p : TimeRow → Bool) :
    entrySeconds entry (rows.filter p) =
      (rows.map fun row => if p row then if row.entry = entry then row.seconds else 0 else 0).sum := by
  unfold entrySeconds
  rw [sum_filter, sum_filter]
  simp only [beq_iff_eq]

/-- Ordering the rows changes no sum. -/
theorem entrySeconds_orderBy {κ : Type} [LinearOrder κ] (entry : EntryKey) (key : TimeRow → κ)
    (tie : TimeRow → Nat) (rows : List TimeRow) :
    entrySeconds entry (orderBy key tie rows) = entrySeconds entry rows :=
  (((List.perm_insertionSort _ rows).filter _).map _).sum_eq

theorem keySeconds_orderBy {κ : Type} [LinearOrder κ] (key : QuickbooksKey) (order : QuickbooksRow → κ)
    (tie : QuickbooksRow → Nat) (rows : List QuickbooksRow) :
    keySeconds key (orderBy order tie rows) = keySeconds key rows :=
  (((List.perm_insertionSort _ rows).filter _).map _).sum_eq

/-- A limit that is not reached cuts nothing off. -/
theorem limited_eq_self {ρ : Type} {limit : Option Int} {rows : List ρ}
    (h : ∀ l ∈ limit, (rows.length : Int) ≤ l) : limited limit rows = rows := by
  unfold limited
  cases limit with
  | none => rfl
  | some l =>
    have hle := h l rfl
    exact List.take_of_length_le (by omega)

/-! ## Sessions and entries -/

section

variable {now : Int} {db : Database} {lower upper : Int}

/-- What a row adds to the seconds of an entry, if it has seconds and is admitted. -/
theorem row_seconds (own entry : EntryKey) (admitted : Bool) (seconds : Int) :
    (if (decide (0 < seconds) && admitted) = true then if own = entry then seconds else 0 else 0) =
      if own = entry then if admitted then if 0 < seconds then seconds else 0 else 0 else 0 := by
  by_cases hown : own = entry
  · rw [if_pos hown, if_pos hown]
    cases admitted with
    | false => simp
    | true => simp
  · rw [if_neg hown, if_neg hown]
    simp

/-- The seconds that a window shows of a session. -/
theorem trackedRow_seconds (ws : WorkSession) (q : Option Nat → Option Nat → Bool) (entry : EntryKey) :
    ((trackedRow now db lower upper ws).elim 0 fun row =>
      if (decide (0 < row.seconds) && q row.userId row.projectId) = true then
        if row.entry = entry then row.seconds else 0 else 0) =
      if EntryKey.session ws.id = entry then
        if q ws.userId ws.projectId then shownSeconds (windowTotal lower upper (sessionSpans now db ws))
        else 0
      else 0 := by
  have htotal : windowTotal lower upper (sessionSpans now db ws) =
      (((sessionSpans now db ws).filter (inWindow lower upper)).map (clipped lower upper)).sum :=
    (sum_filter _ _ _).symm
  rw [htotal]
  unfold trackedRow
  by_cases hempty : ((sessionSpans now db ws).filter (inWindow lower upper)).isEmpty = true
  · have hzero : shownSeconds 0 = 0 := by decide
    rw [if_pos hempty, List.isEmpty_iff.mp hempty, List.map_nil, List.sum_nil, hzero]
    simp
  · rw [if_neg hempty]
    exact row_seconds _ _ _ _

/-- The seconds that a window shows of a manual entry. -/
theorem manualRow_seconds (m : ManualTimeEntry) (q : Option Nat → Option Nat → Bool) (entry : EntryKey) :
    ((manualRow db lower upper m).elim 0 fun row =>
      if (decide (0 < row.seconds) && q row.userId row.projectId) = true then
        if row.entry = entry then row.seconds else 0 else 0) =
      if EntryKey.manual m.id = entry then
        if joinsManual db m && q (some m.userId) (some m.projectId) then
          shownSeconds (windowTotal lower upper [(m.startedAt, m.endedAt)])
        else 0
      else 0 := by
  have htotal : windowTotal lower upper [(m.startedAt, m.endedAt)] =
      windowTime lower upper (m.startedAt, m.endedAt) := Int.add_zero _
  rw [htotal]
  unfold manualRow windowTime
  cases hjoins : joinsManual db m with
  | false => simp
  | true =>
    by_cases hin : inWindow lower upper (m.startedAt, m.endedAt) = true
    · rw [hin]
      exact row_seconds _ _ _ _
    · have hzero : shownSeconds 0 = 0 := by decide
      rw [if_neg (by simpa using hin), if_neg hin, hzero]
      simp

/-- What a window shows of a session. -/
theorem entrySeconds_session (hkeys : UniqueKey (·.id) db.workSessions) {ws : WorkSession}
    (hws : ws ∈ db.workSessions) (q : Option Nat → Option Nat → Bool) :
    entrySeconds (.session ws.id) (admittedRows now db lower upper q) =
      if q ws.userId ws.projectId then shownSeconds (windowTotal lower upper (sessionSpans now db ws))
      else 0 := by
  unfold admittedRows windowRows
  rw [entrySeconds_eq, List.map_append, List.sum_append, sum_filterMap, sum_filterMap]
  simp only [trackedRow_seconds, manualRow_seconds, EntryKey.session.injEq, reduceCtorEq, if_false]
  rw [hkeys.sum_ite hws, sum_map_zero fun _ _ => rfl, Int.add_zero]

/-- What a window shows of a manual entry. -/
theorem entrySeconds_manual (hkeys : UniqueKey (·.id) db.manualTimeEntries) {m : ManualTimeEntry}
    (hm : m ∈ db.manualTimeEntries) (q : Option Nat → Option Nat → Bool) :
    entrySeconds (.manual m.id) (admittedRows now db lower upper q) =
      if joinsManual db m && q (some m.userId) (some m.projectId) then
        shownSeconds (windowTotal lower upper [(m.startedAt, m.endedAt)])
      else 0 := by
  unfold admittedRows windowRows
  rw [entrySeconds_eq, List.map_append, List.sum_append, sum_filterMap, sum_filterMap]
  simp only [trackedRow_seconds, manualRow_seconds, EntryKey.manual.injEq, reduceCtorEq, if_false]
  rw [hkeys.sum_ite hm, sum_map_zero fun _ _ => rfl, Int.zero_add]

end

/-- **Windows divide the time of spans**, but for reversed ones. -/
theorem windowTotal_add {a b c : Int} (hab : a < b) (hbc : b < c) (spans : List (Int × Int)) :
    windowTotal a c spans =
      windowTotal a b spans + windowTotal b c spans - (spans.map (reversedAt a b c)).sum := by
  unfold windowTotal
  induction spans with
  | nil => rfl
  | cons span spans ih =>
    simp only [List.map_cons, List.sum_cons]
    have hspan : windowTime a c span =
        windowTime a b span + windowTime b c span - reversedAt a b c span := by
      unfold windowTime reversedAt inWindow clipped
      simp only [Bool.and_eq_true, decide_eq_true_eq]
      split <;> split <;> split <;> split <;> omega
    omega

theorem windowTotal_nonneg {lower upper : Int} (hwindow : lower < upper) {spans : List (Int × Int)}
    (h : ∀ span ∈ spans, span.1 ≤ span.2) : 0 ≤ windowTotal lower upper spans := by
  unfold windowTotal
  induction spans with
  | nil => exact le_rfl
  | cons span spans ih =>
    have hrest := ih fun other hother => h other (List.mem_cons_of_mem _ hother)
    have hforward := h span List.mem_cons_self
    have hspan : 0 ≤ windowTime lower upper span := by
      unfold windowTime inWindow clipped
      simp only [Bool.and_eq_true, decide_eq_true_eq]
      split <;> omega
    simp only [List.map_cons, List.sum_cons]
    omega

/-- What rounding two times makes in excess of rounding their sum. -/
theorem toBigint_add {x y : Int} (hx : 0 ≤ x) (hy : 0 ≤ y) :
    toBigint x + toBigint y =
      toBigint (x + y) + (if makesSecond x y then 1 else 0) - (if losesSecond x y then 1 else 0) := by
  unfold toBigint makesSecond losesSecond
  rw [if_pos hx, if_pos hy, if_pos (Int.add_nonneg hx hy)]
  simp only [Bool.and_eq_true, decide_eq_true_eq]
  split <;> split <;> omega

/-- What rounding leaves of a time that something is taken from. -/
theorem roundsTogether_iff {x y taken : Int} (hx : 0 ≤ x) (hy : 0 ≤ y) (htaken : 0 ≤ taken)
    (hrest : taken ≤ x + y) :
    toBigint x + toBigint y = toBigint (x + y - taken) ↔ RoundsTogether x y taken := by
  rw [toBigint_add hx hy]
  unfold RoundsTogether toBigint
  rw [if_pos (Int.add_nonneg hx hy), if_pos (Int.sub_nonneg.mpr hrest)]
  have hmakes : makesSecond x y = true → losesSecond x y = false := by
    unfold makesSecond losesSecond
    simp only [Bool.and_eq_true, decide_eq_true_eq, Bool.and_eq_false_iff, decide_eq_false_iff_not]
    omega
  cases hm : makesSecond x y with
  | true =>
    rw [hmakes hm]
    simp only [if_true, Bool.false_eq_true, if_false, Bool.true_eq_false, false_and, iff_false]
    omega
  | false =>
    cases hl : losesSecond x y with
    | true =>
      simp only [if_true, Bool.false_eq_true, if_false, true_and]
      omega
    | false =>
      simp only [Bool.false_eq_true, if_false, true_and]
      omega

theorem shownSeconds_eq (x : Int) : shownSeconds x = toBigint (max 0 x) := by
  unfold shownSeconds toBigint
  rw [if_pos (le_max_left 0 x)]
  split <;> split <;> omega

/-- **What the windows show of spans adds up** exactly where the fractions of a second and the reversed time
let it. -/
theorem spansAddUp_iff {a b c : Int} (hab : a < b) (hbc : b < c) (spans : List (Int × Int)) :
    shownSeconds (windowTotal a b spans) + shownSeconds (windowTotal b c spans) =
      shownSeconds (windowTotal a c spans) ↔ SpansAddUp a b c spans := by
  have hreversed : 0 ≤ (spans.map (reversedAt a b c)).sum := by
    induction spans with
    | nil => exact le_rfl
    | cons span spans ih =>
      have hspan : 0 ≤ reversedAt a b c span := by
        unfold reversedAt
        split <;> omega
      simp only [List.map_cons, List.sum_cons]
      omega
  have hwhole := windowTotal_add hab hbc spans
  unfold SpansAddUp
  rw [shownSeconds_eq, shownSeconds_eq, shownSeconds_eq,
    ← roundsTogether_iff (le_max_left 0 _) (le_max_left 0 _) (by unfold reversedTime; omega)
      (by unfold reversedTime; omega)]
  have hrest : max 0 (windowTotal a c spans) =
      max 0 (windowTotal a b spans) + max 0 (windowTotal b c spans) - reversedTime a b c spans := by
    unfold reversedTime
    omega
  rw [hrest]

/-- Spans that end no earlier than they start leave only the fractions. -/
theorem spansAddUp_of_forward {a b c : Int} (hab : a < b) (hbc : b < c) {spans : List (Int × Int)}
    (h : ∀ span ∈ spans, span.1 ≤ span.2) :
    SpansAddUp a b c spans ↔ RoundsAlike (windowTotal a b spans) (windowTotal b c spans) := by
  have hreversed : (spans.map (reversedAt a b c)).sum = 0 := by
    apply sum_map_zero
    intro span hspan
    have hforward := h span hspan
    unfold reversedAt
    split <;> omega
  have hfirst := windowTotal_nonneg hab h
  have hsecond := windowTotal_nonneg hbc h
  have htaken : reversedTime a b c spans = 0 := by
    unfold reversedTime
    omega
  unfold SpansAddUp RoundsTogether RoundsAlike
  rw [htaken, max_eq_right hfirst, max_eq_right hsecond]
  refine and_congr_right fun _ => ?_
  cases losesSecond (windowTotal a b spans) (windowTotal b c spans) with
  | true =>
    simp only [if_true, Bool.true_eq_false, iff_false]
    omega
  | false =>
    simp only [Bool.false_eq_true, if_false, iff_true]
    omega

/-! ## Local days -/

section

variable {zone : ReportZone} {lower upper : Int} {e : TimeEntry}

theorem mem_pieceDays {day : Int} : day ∈ pieceDays zone lower upper e ↔
    zone.dayOf (max e.startedAt lower) ≤ day ∧ day ≤ zone.dayOf (min e.endedAt upper - 1) := by
  unfold pieceDays
  simp only [List.mem_map, List.mem_range]
  constructor
  · rintro ⟨k, hk, rfl⟩
    omega
  · rintro ⟨hfirst, hlast⟩
    exact ⟨(day - zone.dayOf (max e.startedAt lower)).toNat, by omega, by omega⟩

theorem pieceDays_nodup : (pieceDays zone lower upper e).Nodup := by
  refine List.Nodup.map ?_ List.nodup_range
  intro x y hxy
  simpa using hxy

theorem ReportZone.midnight_le (zone : ReportZone) {day day' : Int} (h : day ≤ day') :
    zone.midnight day ≤ zone.midnight day' := by
  induction day', h using Int.leInduction with
  | base => exact le_rfl
  | succ n _ ih => exact ih.trans (zone.midnights n)

/-- An instant is before the midnight that ends its local day. -/
theorem ReportZone.lt_midnight (zone : ReportZone) (t : Int) : t < zone.midnight (zone.dayOf t + 1) :=
  zone.lt_instant (dateOf_eq_iff.mp rfl).2

/-- **An entry is cut into its local days without loss exactly when it starts in its local day.** -/
theorem eachInOneDay_iff : EachInOneDay zone lower upper e ↔ StartsInItsDay zone lower upper e := by
  unfold EachInOneDay StartsInItsDay
  constructor
  · intro h htime
    obtain ⟨day, ⟨hmem, hbegun, _⟩, _⟩ := h _ le_rfl htime
    exact (zone.midnight_le (mem_pieceDays.mp hmem).1).trans hbegun
  · intro h t hstart hend
    have hbegun := h (hstart.trans_lt hend)
    -- the day of an instant is the last one that has begun by then
    have hexists : ∃ day, zone.dayOf (max e.startedAt lower) ≤ day ∧ zone.midnight day ≤ t ∧
        t < zone.midnight (day + 1) := by
      have hlast : t < zone.midnight (zone.dayOf (min e.endedAt upper - 1) + 1) := by
        have hlt := zone.lt_midnight (min e.endedAt upper - 1)
        omega
      by_contra hnone
      push Not at hnone
      have hall : ∀ n : Nat, zone.midnight (zone.dayOf (max e.startedAt lower) + n) ≤ t := by
        intro n
        induction n with
        | zero =>
          rw [Int.natCast_zero, Int.add_zero]
          exact hbegun.trans hstart
        | succ n ih =>
          have hnext := hnone _ (by omega) ih
          rw [Int.natCast_succ, ← Int.add_assoc]
          exact hnext
      have hle := hall ((zone.dayOf (min e.endedAt upper - 1) + 1 -
        zone.dayOf (max e.startedAt lower)).toNat)
      have hmono := zone.midnight_le (show zone.dayOf (min e.endedAt upper - 1) + 1 ≤
        zone.dayOf (max e.startedAt lower) + ((zone.dayOf (min e.endedAt upper - 1) + 1 -
          zone.dayOf (max e.startedAt lower)).toNat : Int) by omega)
      omega
    obtain ⟨day, hfirst, hday, hnext⟩ := hexists
    refine ⟨day, ⟨mem_pieceDays.mpr ⟨hfirst, ?_⟩, hday, hnext⟩, ?_⟩
    · by_contra hpast
      have hmono := zone.midnight_le (show zone.dayOf (min e.endedAt upper - 1) + 1 ≤ day by omega)
      have hlt := zone.lt_midnight (min e.endedAt upper - 1)
      omega
    · rintro other ⟨_, hother, hother'⟩
      by_contra hne
      rcases lt_or_gt_of_ne hne with hlt | hgt
      · have hmono := zone.midnight_le (show other + 1 ≤ day by omega)
        omega
      · have hmono := zone.midnight_le (show day + 1 ≤ other by omega)
        omega

/-- What the report counts of an entry on a day. -/
def pieceSeconds (zone : ReportZone) (lower upper day : Int) (e : TimeEntry) : Int :=
  if inWindow lower upper e.span ∧ day ∈ pieceDays zone lower upper e then
    shownSeconds (pieceMicros zone lower upper e day) else 0

theorem toBigint_of_nonpos {x : Int} (h : x ≤ 0) : ¬ 0 < toBigint x := by
  unfold toBigint
  split <;> omega

/-- An entry that starts in its local day counts on every day with its time of that day. -/
theorem pieceSeconds_eq (h : StartsInItsDay zone lower upper e) (day : Int) :
    pieceSeconds zone lower upper day e = toBigint (entryDayTime zone lower upper day e) := by
  have hzero : toBigint 0 = 0 := by decide
  unfold pieceSeconds entryDayTime
  by_cases hcounts : inWindow lower upper e.span ∧ day ∈ pieceDays zone lower upper e
  · rw [if_pos hcounts]
    unfold shownSeconds
    by_cases hpos : 0 ≤ pieceMicros zone lower upper e day
    · rw [max_eq_right hpos]
      have hnonneg : 0 ≤ toBigint (pieceMicros zone lower upper e day) := by
        unfold toBigint
        rw [if_pos hpos]
        omega
      split <;> omega
    · rw [max_eq_left (by omega), if_neg (toBigint_of_nonpos (by omega)), hzero]
  · have hnone : pieceMicros zone lower upper e day ≤ 0 := by
      rw [mem_pieceDays] at hcounts
      unfold inWindow TimeEntry.span at hcounts
      simp only [Bool.and_eq_true, decide_eq_true_eq] at hcounts
      unfold pieceMicros
      by_cases htime : max e.startedAt lower < min e.endedAt upper
      · have hbegun := h htime
        by_cases hearly : day < zone.dayOf (max e.startedAt lower)
        · have hmono := zone.midnight_le (show day + 1 ≤ zone.dayOf (max e.startedAt lower) by omega)
          omega
        · have hmono := zone.midnight_le
            (show zone.dayOf (min e.endedAt upper - 1) + 1 ≤ day by omega)
          have hlt := zone.lt_midnight (min e.endedAt upper - 1)
          omega
      · omega
    rw [if_neg hcounts, max_eq_left hnone, hzero]

/-- The time of an entry on a day divides. -/
theorem entryDayTime_add {a b c : Int} (hab : a < b) (hbc : b < c) (day : Int) (e : TimeEntry) :
    entryDayTime zone a b day e + entryDayTime zone b c day e = entryDayTime zone a c day e := by
  unfold entryDayTime pieceMicros
  omega

end

/-! ## Keys of the report for QuickBooks -/

section

variable {zone : ReportZone} {db : Database} {lower upper : Int} {userId projectId : Option Nat}

/-- The groups hold the seconds of their pieces. -/
theorem keySeconds_groupPieces (key : QuickbooksKey) (pieces : List QuickbooksRow) :
    keySeconds key (groupPieces pieces) = keySeconds key pieces := by
  have hunique : UniqueKey id (pieces.map (·.key)).dedup := by
    unfold UniqueKey
    rw [List.map_id]
    exact List.nodup_dedup _
  have hgroups : keySeconds key (groupPieces pieces) =
      ((pieces.map (·.key)).dedup.map fun k => if id k = id key then keySeconds k pieces else 0).sum := by
    unfold groupPieces
    rw [keySeconds, sum_filter, List.map_map]
    simp only [Function.comp_def, beq_iff_eq, id]
    rfl
  rw [hgroups]
  by_cases hkey : key ∈ (pieces.map (·.key)).dedup
  · exact hunique.sum_ite hkey fun k => keySeconds k pieces
  · have hnone : pieces.filter (·.key == key) = [] := by
      rw [List.filter_eq_nil_iff]
      intro piece hpiece heq
      apply hkey
      rw [List.mem_dedup, ← beq_iff_eq.mp heq]
      exact List.mem_map.mpr ⟨piece, hpiece, rfl⟩
    rw [sum_map_zero]
    · rw [keySeconds, hnone]
      rfl
    · intro k hk
      refine if_neg fun heq => hkey ?_
      rw [← show k = key from heq]
      exact hk

theorem TimeEntry.key_eq_iff {e : TimeEntry} {key : QuickbooksKey} {day : Int} :
    e.key day = key ↔ e.under key = true ∧ day = key.workDate := by
  unfold TimeEntry.under TimeEntry.key
  rw [beq_iff_eq]
  cases key
  simp only [QuickbooksKey.mk.injEq]
  tauto

/-- The pieces of an entry under a key. -/
theorem sum_pieces (key : QuickbooksKey) (e : TimeEntry) :
    ((pieceDays zone lower upper e).map fun day =>
      if 0 < toBigint (pieceMicros zone lower upper e day) then
        if e.key day = key then toBigint (pieceMicros zone lower upper e day) else 0
      else 0).sum =
      if e.under key = true then
        if key.workDate ∈ pieceDays zone lower upper e then
          shownSeconds (pieceMicros zone lower upper e key.workDate)
        else 0
      else 0 := by
  by_cases hunder : e.under key = true
  · rw [if_pos hunder]
    have hday : ∀ day, (if 0 < toBigint (pieceMicros zone lower upper e day) then
        if e.key day = key then toBigint (pieceMicros zone lower upper e day) else 0 else 0) =
        if id day = id key.workDate then shownSeconds (pieceMicros zone lower upper e day) else 0 := by
      intro day
      have hiff : e.key day = key ↔ day = key.workDate := by
        rw [TimeEntry.key_eq_iff, and_iff_right hunder]
      simp only [hiff, id]
      unfold shownSeconds
      split
      · rfl
      · rw [ite_self]
    simp only [hday]
    by_cases hmem : key.workDate ∈ pieceDays zone lower upper e
    · rw [if_pos hmem]
      have hunique : UniqueKey id (pieceDays zone lower upper e) := by
        unfold UniqueKey
        rw [List.map_id]
        exact pieceDays_nodup
      exact hunique.sum_ite hmem fun day => shownSeconds (pieceMicros zone lower upper e day)
    · rw [if_neg hmem]
      refine sum_map_zero fun day hin => if_neg fun heq => hmem ?_
      rw [← show day = key.workDate from heq]
      exact hin
  · rw [if_neg hunder]
    refine sum_map_zero fun day _ => ?_
    rw [if_neg fun heq => hunder (TimeEntry.key_eq_iff.mp heq).1, ite_self]

/-- **What the report counts under a key**, entry by entry. -/
theorem keySeconds_quickbooksRows (key : QuickbooksKey) :
    keySeconds key (quickbooksRows zone db lower upper false userId projectId) =
      (((scopedEntries db userId projectId).filter (·.under key)).map
        (pieceSeconds zone lower upper key.workDate)).sum := by
  unfold quickbooksRows
  rw [keySeconds_groupPieces, keySeconds, sum_filter, sum_filter]
  unfold timePieces
  rw [List.map_flatMap, List.flatMap_def, List.sum_flatten, List.map_map, sum_filter, sum_filter]
  refine congrArg List.sum (List.map_congr_left fun e _ => ?_)
  simp only [Function.comp_def, List.map_map, Bool.not_false, Bool.true_or, Bool.and_true,
    decide_eq_true_eq, beq_iff_eq, sum_pieces]
  unfold pieceSeconds
  by_cases hin : inWindow lower upper e.span = true
  · simp only [if_pos hin, and_iff_right hin]
  · have hout : inWindow lower upper e.span = false := by simpa using hin
    simp [hout]

end

/-! ## Whole seconds -/

/-- A whole number of seconds. -/
def Whole (t : Int) : Prop := t % 1000000 = 0

/-- Whole seconds lose nothing to rounding. -/
theorem toBigint_whole {x : Int} (h : Whole x) : toBigint x = x / 1000000 := by
  unfold Whole at h
  unfold toBigint
  split <;> omega

theorem roundsAlike_whole {x y : Int} (hx : Whole x) (hy : Whole y) : RoundsAlike x y := by
  unfold Whole at *
  unfold RoundsAlike makesSecond losesSecond
  rw [hx, hy]
  decide

/-- A span between whole seconds that does not end before it starts. -/
def WholeSpan (span : Int × Int) : Prop := Whole span.1 ∧ Whole span.2 ∧ span.1 ≤ span.2

theorem windowTotal_whole {lower upper : Int} (hlower : Whole lower) (hupper : Whole upper)
    (hwindow : lower < upper) {spans : List (Int × Int)} (h : ∀ span ∈ spans, WholeSpan span) :
    Whole (windowTotal lower upper spans) ∧ 0 ≤ windowTotal lower upper spans := by
  unfold windowTotal
  induction spans with
  | nil => exact ⟨rfl, le_rfl⟩
  | cons span spans ih =>
    obtain ⟨hrest, hnonneg⟩ := ih fun other hother => h other (List.mem_cons_of_mem _ hother)
    obtain ⟨hstart, hend, hforward⟩ := h span List.mem_cons_self
    simp only [List.map_cons, List.sum_cons]
    generalize (spans.map (windowTime lower upper)).sum = total at hrest hnonneg
    unfold windowTime inWindow clipped
    simp only [Bool.and_eq_true, decide_eq_true_eq]
    unfold Whole at *
    split <;> omega

/-- **For whole seconds only the local day of an entry's first instant matters.** -/
theorem ReportsAddUp.of_whole {r : ReportRequest} {now : Int} {db : Database} (hab : r.a < r.b)
    (hbc : r.b < r.c) (ha : Whole r.a) (hb : Whole r.b) (hc : Whole r.c)
    (hmidnights : ∀ day, Whole (r.zone.midnight day))
    (hsessions : ∀ ws ∈ db.workSessions, ∀ span ∈ sessionSpans now db ws, WholeSpan span)
    (hentries : ∀ m ∈ db.manualTimeEntries, WholeSpan (m.startedAt, m.endedAt))
    (hscoped : ∀ e ∈ scopedEntries db r.userId r.projectId, WholeSpan e.span) :
    ReportsAddUp r now db ↔ ∀ window ∈ r.windows, ∀ e ∈ scopedEntries db r.userId r.projectId,
      StartsInItsDay r.zone window.1 window.2 e := by
  constructor
  · exact ReportsAddUp.days
  · intro hdays
    have hspans : ∀ spans : List (Int × Int), (∀ span ∈ spans, WholeSpan span) →
        SpansAddUp r.a r.b r.c spans := by
      intro spans h
      rw [spansAddUp_of_forward hab hbc fun span hspan => (h span hspan).2.2]
      exact roundsAlike_whole (windowTotal_whole ha hb hab h).1 (windowTotal_whole hb hc hbc h).1
    refine ⟨fun ws hws => hspans _ (hsessions ws hws),
      fun m hm _ => hspans _ (List.forall_mem_singleton.mpr (hentries m hm)), hdays, fun key => ?_⟩
    refine List.countP_congr fun e he => ?_
    obtain ⟨hstart, hend, _⟩ := hscoped e (List.mem_of_mem_filter he)
    have hday := hmidnights key.workDate
    have hnext := hmidnights (key.workDate + 1)
    obtain ⟨hmakes, hloses⟩ : RoundsAlike (entryDayTime r.zone r.a r.b key.workDate e)
        (entryDayTime r.zone r.b r.c key.workDate e) := by
      apply roundsAlike_whole
      all_goals
        unfold entryDayTime pieceMicros
        unfold TimeEntry.span at *
        unfold Whole at *
        omega
    rw [hmakes, hloses]

/-! ## The three reports -/

section

variable {now : Int} {db : Database} {lower upper : Int}

theorem timeReport_eq (tie : TimeRow → Nat) {limit : Option Int} (hwindow : lower < upper)
    (hvalid : ∀ l ∈ limit, 1 ≤ l ∧ l ≤ 100001)
    (hlimit : ∀ l ∈ limit, ((admittedRows now db lower upper fun _ _ => true).length : Int) ≤ l) :
    timeReport tie now db (some lower) (some upper) limit =
      .ok (orderBy (fun row => -row.startedAt) tie (admittedRows now db lower upper fun _ _ => true)) := by
  have hbounds : ¬ upper ≤ lower := by omega
  have hlimits : limit.any (fun l => decide (l < 1) || decide (100001 < l)) = false := by
    cases limit with
    | none => rfl
    | some l =>
      obtain ⟨hlow, hhigh⟩ := hvalid l rfl
      simp only [Option.any_some, Bool.or_eq_false_iff, decide_eq_false_iff_not]
      omega
  have hrows : (windowRows now db lower upper).filter (fun row => decide (0 < row.seconds)) =
      admittedRows now db lower upper fun _ _ => true := by
    unfold admittedRows
    simp only [Bool.and_true]
  unfold timeReport
  simp only [raiseIf, Option.isNone_some, ne_eq, not_true_eq_false, if_false, Option.any_some, hlimits,
    decide_eq_false hbounds, Bool.false_eq_true, hrows, bind, Except.bind, pure, Except.pure]
  rw [limited_eq_self]
  intro l hl
  rw [orderBy, (List.perm_insertionSort _ _).length_eq]
  exact hlimit l hl

theorem customTimeReport_eq (tie : TimeRow → Nat) {filters : ReportFilters} {limit : Int}
    (hscope : filters.scopeMode ≠ none)
    (hlimit : ((admittedRows now db lower upper (filters.admits db)).length : Int) ≤
      min (max limit 1) 10001) :
    customTimeReport tie now db lower upper filters limit =
      .ok (orderBy (fun row => -row.startedAt) tie
        (admittedRows now db lower upper (filters.admits db))) := by
  unfold customTimeReport
  simp only [raiseIf, hscope, if_false, bind, Except.bind, pure, Except.pure]
  rw [limited_eq_self]
  · rfl
  · intro l hl
    rw [orderBy, (List.perm_insertionSort _ _).length_eq, ← Option.some.inj hl]
    exact hlimit

theorem quickbooksTimeRows_eq (tie : QuickbooksRow → Nat) {zone : ReportZone} {userId projectId : Option Nat}
    {limit : Int} (hwindow : lower < upper) (hvalid : 1 ≤ limit ∧ limit ≤ 10001)
    (hlimit : ((quickbooksRows zone db lower upper false userId projectId).length : Int) ≤ limit) :
    quickbooksTimeRows tie (some zone) db lower upper false userId projectId limit =
      .ok (orderBy (·.key.workDate) tie (quickbooksRows zone db lower upper false userId projectId)) := by
  have hbounds : ¬ upper ≤ lower := by omega
  have hlimits : ¬ (limit < 1 ∨ 10001 < limit) := by omega
  unfold quickbooksTimeRows
  simp only [raiseIf, hbounds, hlimits, if_false, bind, Except.bind, pure, Except.pure]
  rw [limited_eq_self]
  intro l hl
  rw [orderBy, (List.perm_insertionSort _ _).length_eq, ← Option.some.inj hl]
  exact hlimit

end

/-! ## The equivalence -/

section

variable {r : ReportRequest} {now : Int} {db : Database}

theorem AddUp.ok_iff {ρ : Type} {count : List ρ → Int} {x y z : List ρ} :
    AddUp count (.ok x) (.ok y) (.ok z) ↔ count x + count y = count z := by
  constructor
  · intro h
    exact h x y z rfl rfl rfl
  · rintro h _ _ _ ⟨⟩ ⟨⟩ ⟨⟩
    exact h

/-- A report whose windows hold the admitted rows is additive exactly when the spans of every admitted session
and entry are. -/
theorem entriesAdditive_iff (hab : r.a < r.b) (hbc : r.b < r.c)
    (hsessions : UniqueKey (·.id) db.workSessions) (hentries : UniqueKey (·.id) db.manualTimeEntries)
    (q : Option Nat → Option Nat → Bool) (tie : Int → Int → TimeRow → Nat)
    (report : Int → Int → Except Error (List TimeRow))
    (hreport : ∀ window ∈ r.windows, report window.1 window.2 =
      .ok (orderBy (fun row => -row.startedAt) (tie window.1 window.2)
        (admittedRows now db window.1 window.2 q))) :
    r.EntriesAdditive db report ↔
      (∀ ws ∈ db.workSessions, q ws.userId ws.projectId = true →
        SpansAddUp r.a r.b r.c (sessionSpans now db ws)) ∧
      ∀ m ∈ db.manualTimeEntries, joinsManual db m = true → q (some m.userId) (some m.projectId) = true →
        SpansAddUp r.a r.b r.c [(m.startedAt, m.endedAt)] := by
  have hfirst : report r.a r.b = _ := hreport (r.a, r.b) (by simp [ReportRequest.windows])
  have hsecond : report r.b r.c = _ := hreport (r.b, r.c) (by simp [ReportRequest.windows])
  have hwhole : report r.a r.c = _ := hreport (r.a, r.c) (by simp [ReportRequest.windows])
  unfold ReportRequest.EntriesAdditive ReportRequest.Additive
  rw [hfirst, hsecond, hwhole]
  simp only [AddUp.ok_iff, entrySeconds_orderBy]
  refine and_congr (forall₂_congr fun ws hws => ?_) (forall₂_congr fun m hm => ?_)
  · simp only [entrySeconds_session hsessions hws]
    by_cases hadmits : q ws.userId ws.projectId = true
    · simp only [forall_const, hadmits]
      exact spansAddUp_iff hab hbc _
    · simp [hadmits]
  · simp only [entrySeconds_manual hentries hm]
    by_cases hjoins : joinsManual db m = true
    · by_cases hadmits : q (some m.userId) (some m.projectId) = true
      · simp only [hjoins, hadmits, Bool.and_self, if_true, forall_const]
        exact spansAddUp_iff hab hbc _
      · simp [hadmits]
    · simp [hjoins]

/-- Where every entry starts in its local day, the seconds under a key add up exactly when as many of its pieces
make a second as lose one. -/
theorem keySeconds_additive_iff (hab : r.a < r.b) (hbc : r.b < r.c)
    (hdays : ∀ window ∈ r.windows, ∀ e ∈ scopedEntries db r.userId r.projectId,
      StartsInItsDay r.zone window.1 window.2 e) (key : QuickbooksKey) :
    keySeconds key (quickbooksRows r.zone db r.a r.b false r.userId r.projectId) +
        keySeconds key (quickbooksRows r.zone db r.b r.c false r.userId r.projectId) =
      keySeconds key (quickbooksRows r.zone db r.a r.c false r.userId r.projectId) ↔
      ((scopedEntries db r.userId r.projectId).filter (·.under key)).countP (fun e =>
        makesSecond (entryDayTime r.zone r.a r.b key.workDate e) (entryDayTime r.zone r.b r.c key.workDate e)) =
      ((scopedEntries db r.userId r.projectId).filter (·.under key)).countP (fun e =>
        losesSecond (entryDayTime r.zone r.a r.b key.workDate e) (entryDayTime r.zone r.b r.c key.workDate e)) := by
  have hpieces : ∀ window ∈ r.windows,
      keySeconds key (quickbooksRows r.zone db window.1 window.2 false r.userId r.projectId) =
        (((scopedEntries db r.userId r.projectId).filter (·.under key)).map fun e =>
          toBigint (entryDayTime r.zone window.1 window.2 key.workDate e)).sum := by
    intro window hwindow
    rw [keySeconds_quickbooksRows]
    refine congrArg List.sum (List.map_congr_left fun e he => ?_)
    exact pieceSeconds_eq (hdays window hwindow e (List.mem_of_mem_filter he)) _
  rw [hpieces (r.a, r.b) (by simp [ReportRequest.windows]),
    hpieces (r.b, r.c) (by simp [ReportRequest.windows]),
    hpieces (r.a, r.c) (by simp [ReportRequest.windows])]
  dsimp only
  generalize (scopedEntries db r.userId r.projectId).filter (·.under key) = entries
  have hsum : (entries.map fun e => toBigint (entryDayTime r.zone r.a r.b key.workDate e)).sum +
      (entries.map fun e => toBigint (entryDayTime r.zone r.b r.c key.workDate e)).sum =
      (entries.map fun e => toBigint (entryDayTime r.zone r.a r.c key.workDate e)).sum +
        (entries.countP fun e =>
          makesSecond (entryDayTime r.zone r.a r.b key.workDate e) (entryDayTime r.zone r.b r.c key.workDate e)) -
        (entries.countP fun e =>
          losesSecond (entryDayTime r.zone r.a r.b key.workDate e) (entryDayTime r.zone r.b r.c key.workDate e)) := by
    induction entries with
    | nil => rfl
    | cons e entries ih =>
      have hpiece := toBigint_add (le_max_left 0 (pieceMicros r.zone r.a r.b e key.workDate))
        (le_max_left 0 (pieceMicros r.zone r.b r.c e key.workDate))
      have hwhole := @entryDayTime_add r.zone _ _ _ hab hbc key.workDate e
      unfold entryDayTime at hwhole
      rw [hwhole] at hpiece
      simp only [List.map_cons, List.sum_cons, List.countP_cons, Nat.cast_add, Nat.cast_ite, Nat.cast_one,
        Nat.cast_zero]
      unfold entryDayTime at ih ⊢
      omega
  omega

end

/-- A zone that is always the same number of microseconds ahead of UTC. -/
def ReportZone.fixed (offset : Int) : ReportZone where
  wall t := t + offset
  instant w := w - offset
  lt_instant h := by omega
  le_instant t := by omega
  midnights day := by
    unfold startOfDay days seconds
    omega

/-- A zone whose clocks go back once. -/
def ReportZone.ofFold (change before after : Int) (h : after ≤ before) : ReportZone where
  wall t := t + if t < change then before else after
  instant w := if w < change + after then w - before else w - after
  lt_instant := by
    intro t w hlt
    split at hlt <;> split <;> omega
  le_instant := by
    intro t
    split <;> split <;> omega
  midnights := by
    intro day
    unfold startOfDay days seconds
    split <;> split <;> omega

/-- One member worked on one project by an approved manual entry. -/
def manualWork (startedAt endedAt : Int) : Database :=
  { users := [{ id := 1, role := .member, enabled := true, dailyLimitMinutes := 0, weeklyLimitMinutes := 0 }]
    projects := [{ id := 1, enabled := true }]
    manualTimeEntries := [{ id := 1, userId := 1, projectId := 1, taskId := none, startedAt, endedAt,
                            note := "", status := .approved }] }

/-- The requests of an organization for the windows. -/
def organizationRequest (zone : ReportZone) (a b c : Int) : ReportRequest :=
  { a, b, c, timeLimit := none
    filters := { userId := none, projectId := none, scopeUserId := none, scopeMode := some .all }
    customLimit := 10000, zone, userId := none, projectId := none, quickbooksLimit := 10001 }

/-- No order among equal keys. -/
def noTies : ReportTies :=
  { time := fun _ _ _ => 0, custom := fun _ _ _ => 0, quickbooks := fun _ _ _ => 0 }

/-- The clocks go from 01:00 back to 00:00 on the first day. -/
def repeatedMidnight : ReportZone := .ofFold 0 (minutes 60) 0 (by decide)

end Dayfinch
