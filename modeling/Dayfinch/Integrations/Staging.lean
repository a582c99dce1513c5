/-
# Dayfinch.Integrations.Staging -- the staged seconds of a day are those that were tracked

The exports are a cache of the tracked time, and the dirty days are the keys whose entry may be stale. The
proof has the two parts that such a cache needs. A write to a source marks the days it changes: each row
has a share in a day, and a row whose share is not nothing is marked by its trigger, before and after
(`SourceChange.apply_ensures`). And the stager unmarks only days whose export it has written
(`stageConnection_ensures`). The export takes at most 2147483647 seconds: the stager caps the sum.

All of it is about one connection, whose account and authorization periods stay as they are.
-/
import Dayfinch.Integrations.Worklogs
import Dayfinch.Library.Run

namespace Dayfinch

open Library (updateWhere Ensures ensures_ite Fresh Guarded run guarded_invariant sum_of_forall₂ sum_filterMap
  forall₂_updateWhere mem_updateWhere_cases)

/-! ## What is tracked, and what is staged -/

/-- The seconds of a span within a day and a period. -/
def overlapSeconds (workDate : Int) (p : AuthorizationPeriod) (startedAt endedAt : Int) : Int :=
  toBigint (max 0 (min (p.least endedAt) (startOfDay workDate + days 1) -
    max (max startedAt p.startedAt) (startOfDay workDate)))

namespace WorklogStore

/-- The seconds of a span on a day, within the authorization periods of an account. -/
def spanSeconds (s : WorklogStore) (accountId : String) (day : WorklogDay) (span : Int × Int) : Int :=
  ((s.periodsOf day.integrationId day.userId accountId).map fun p =>
    overlapSeconds day.workDate p span.1 span.2).sum

/-- The seconds that the user has tracked on the task, on that day and within the periods. -/
def trackedOn (s : WorklogStore) (accountId : String) (day : WorklogDay) : Int :=
  ((s.spans day.userId day.taskId).map (s.spanSeconds accountId day)).sum

/-- The seconds of the day's export, if there is one. -/
def desiredOn (s : WorklogStore) (day : WorklogDay) : Int := (s.export? day).elim 0 (·.desiredSeconds)

/-- The day is dirty. -/
def IsDirty (s : WorklogStore) (day : WorklogDay) : Prop := ∃ d ∈ s.dirtyDays, d.day = day

instance (s : WorklogStore) (day : WorklogDay) : Decidable (s.IsDirty day) :=
  inferInstanceAs (Decidable (∃ d ∈ s.dirtyDays, d.day = day))

end WorklogStore

/-! ## The query is the sum -/

theorem toBigint_zero : toBigint 0 = 0 := rfl

theorem toBigint_nonpos {x : Int} (h : x ≤ 0) : toBigint x ≤ 0 := by
  unfold toBigint
  split <;> omega

theorem toBigint_nonneg {x : Int} (h : 0 ≤ x) : 0 ≤ toBigint x := by
  unfold toBigint
  rw [if_pos h]
  omega

theorem overlapSeconds_nonneg (workDate : Int) (p : AuthorizationPeriod) (startedAt endedAt : Int) :
    0 ≤ overlapSeconds workDate p startedAt endedAt :=
  toBigint_nonneg (Int.le_max_left _ _)

theorem AuthorizationPeriod.least_le (p : AuthorizationPeriod) (t : Int) : p.least t ≤ t := by
  unfold AuthorizationPeriod.least
  cases p.endedAt with
  | none => exact Int.le_refl t
  | some endedAt => exact Int.min_le_left _ _

theorem AuthorizationPeriod.lt_of_lt_least {p : AuthorizationPeriod} {t u : Int} (h : u < p.least t) :
    p.endedAt.all (u < ·) = true := by
  unfold AuthorizationPeriod.least at h
  cases hended : p.endedAt with
  | none => rfl
  | some endedAt =>
    rw [hended] at h
    have hlt : u < endedAt := Int.lt_of_lt_of_le h (Int.min_le_right _ _)
    simpa using hlt

/-- A row of the query counts the seconds of the overlap, and where there is none it counts nothing. -/
theorem worklogEntry_seconds (workDate : Int) (p : AuthorizationPeriod) (startedAt endedAt : Int) :
    (((worklogEntry workDate p startedAt endedAt).toList.filter fun entry => 0 < entry.seconds).map
      (·.seconds)).sum = overlapSeconds workDate p startedAt endedAt := by
  unfold overlapSeconds
  unfold worklogEntry
  split
  · rw [Option.toList_some]
    generalize min (p.least endedAt) (startOfDay workDate + days 1) -
      max (max startedAt p.startedAt) (startOfDay workDate) = length
    by_cases hpos : 0 < length
    · rw [Int.max_eq_right (Int.le_of_lt hpos)]
      have hnonneg := toBigint_nonneg (Int.le_of_lt hpos)
      by_cases hcounts : 0 < toBigint length
      · simp [hcounts]
      · have hzero : toBigint length = 0 := by omega
        simp [hzero]
    · have hnone : ¬ 0 < toBigint length := Int.not_lt.mpr (toBigint_nonpos (Int.not_lt.mp hpos))
      rw [Int.max_eq_left (Int.not_lt.mp hpos), toBigint_zero]
      simp [hnone]
  · rename_i hapart
    have hnone : min (p.least endedAt) (startOfDay workDate + days 1) -
        max (max startedAt p.startedAt) (startOfDay workDate) ≤ 0 := by
      by_contra hpos
      have hle := p.least_le endedAt
      exact hapart ⟨by omega, p.lt_of_lt_least (t := endedAt) (by omega), by omega⟩
    rw [Int.max_eq_left hnone]
    rfl

theorem sum_flatMap {α : Type} (f : α → List WorklogEntry) (rows : List α) :
    (((rows.flatMap f).filter fun entry => 0 < entry.seconds).map (·.seconds)).sum =
      (rows.map fun r => (((f r).filter fun entry => 0 < entry.seconds).map (·.seconds)).sum).sum := by
  induction rows with
  | nil => rfl
  | cons r rows ih =>
    rw [List.flatMap_cons, List.filter_append, List.map_append, List.sum_append, ih, List.map_cons,
      List.sum_cons]

/-- **The query sums what was tracked.** -/
theorem sum_worklogEntries (s : WorklogStore) (accountId : String) (day : WorklogDay) :
    ((s.worklogEntries accountId day).map (·.seconds)).sum = s.trackedOn accountId day := by
  unfold WorklogStore.worklogEntries WorklogStore.trackedOn
  rw [sum_flatMap]
  congr 1
  refine List.map_congr_left fun span _ => ?_
  unfold WorklogStore.spanSeconds
  rw [List.filterMap_eq_flatMap_toList, sum_flatMap]
  congr 1
  exact List.map_congr_left fun p _ => worklogEntry_seconds day.workDate p span.1 span.2

/-! ## The triggers mark what a row counts for -/

section

variable {jira : Nat → Option Nat} {now : Int} {s s' s'' : WorklogStore}

/-- Only days are marked, and no mark is lost. -/
def Marks (s s' : WorklogStore) : Prop :=
  (∃ dirtyDays, s' = { s with dirtyDays }) ∧ ∀ day, s.IsDirty day → s'.IsDirty day

theorem Marks.refl (s : WorklogStore) : Marks s s := ⟨⟨s.dirtyDays, rfl⟩, fun _ h => h⟩

theorem Marks.trans (h : Marks s s') (h' : Marks s' s'') : Marks s s'' := by
  obtain ⟨⟨_, rfl⟩, hkeeps⟩ := h
  obtain ⟨⟨dirtyDays, rfl⟩, hkeeps'⟩ := h'
  exact ⟨⟨dirtyDays, rfl⟩, fun day hday => hkeeps' day (hkeeps day hday)⟩

theorem markDay_isDirty (day day' : WorklogDay) :
    (s.markDay now day).IsDirty day' ↔ s.IsDirty day' ∨ day' = day := by
  unfold WorklogStore.markDay WorklogStore.IsDirty
  dsimp only
  split
  · rename_i hany
    obtain ⟨marked, hmarked, hday⟩ := List.any_eq_true.mp hany
    constructor
    · rintro ⟨d, hd, rfl⟩
      rcases mem_updateWhere_cases hd with ⟨hold, _⟩ | ⟨old, hold, _, rfl⟩
      · exact .inl ⟨d, hold, rfl⟩
      · exact .inl ⟨old, hold, rfl⟩
    · intro h
      obtain ⟨d, hd, rfl⟩ : ∃ d ∈ s.dirtyDays, d.day = day' := by
        rcases h with hold | rfl
        · exact hold
        · exact ⟨marked, hmarked, beq_iff_eq.mp hday⟩
      refine ⟨_, Library.mem_updateWhere_of_mem hd, ?_⟩
      split <;> rfl
  · constructor
    · rintro ⟨d, hd, rfl⟩
      rcases List.mem_append.mp hd with hold | hnew
      · exact .inl ⟨d, hold, rfl⟩
      · obtain rfl := List.mem_singleton.mp hnew
        exact .inr rfl
    · rintro (⟨d, hd, rfl⟩ | rfl)
      · exact ⟨d, List.mem_append_left _ hd, rfl⟩
      · exact ⟨_, List.mem_append_right _ List.mem_cons_self, rfl⟩

theorem markDay_marks (day : WorklogDay) : Marks s (s.markDay now day) :=
  ⟨⟨_, rfl⟩, fun day' h => (markDay_isDirty day day').mpr (.inl h)⟩

theorem mem_daysBetween {first last d : Int} : d ∈ daysBetween first last ↔ first ≤ d ∧ d ≤ last := by
  unfold daysBetween
  rw [List.mem_map]
  constructor
  · rintro ⟨n, hn, rfl⟩
    have hlt := List.mem_range.mp hn
    omega
  · rintro ⟨hfirst, hlast⟩
    exact ⟨(d - first).toNat, List.mem_range.mpr (by omega), by omega⟩

/-- Marking days one after the other marks each of them. -/
theorem foldl_markDay (day : Int → WorklogDay) (dates : List Int) (s : WorklogStore) :
    Marks s (dates.foldl (fun s d => s.markDay now (day d)) s) ∧
      ∀ d ∈ dates, (dates.foldl (fun s d => s.markDay now (day d)) s).IsDirty (day d) := by
  induction dates generalizing s with
  | nil => exact ⟨.refl s, fun _ h => (nomatch h)⟩
  | cons first rest ih =>
    obtain ⟨hmarks, hdirty⟩ := ih (s.markDay now (day first))
    refine ⟨(markDay_marks (day first)).trans hmarks, fun d hd => ?_⟩
    rcases List.mem_cons.mp hd with rfl | hrest
    · exact hmarks.2 _ ((markDay_isDirty _ _).mpr (.inr rfl))
    · exact hdirty d hrest

theorem enqueueDays_marks (userId taskId : Option Nat) (startedAt : Int) (endedAt : Option Int) :
    Marks s (s.enqueueDays jira now userId taskId startedAt endedAt) := by
  unfold WorklogStore.enqueueDays
  split
  · split
    · exact .refl s
    · split
      · exact .refl s
      · exact (foldl_markDay _ _ s).1
  · exact .refl s

/-- **The days that a span reaches are marked.** -/
theorem enqueueDays_isDirty {integrationId userId taskId : Nat} {startedAt endedAt workDate : Int}
    (hjira : jira taskId = some integrationId) (hspan : startedAt < endedAt)
    (hfirst : dateOf startedAt ≤ workDate) (hlast : workDate ≤ dateOf (endedAt - 1)) :
    (s.enqueueDays jira now (some userId) (some taskId) startedAt (some endedAt)).IsDirty
      ⟨integrationId, userId, taskId, workDate⟩ := by
  unfold WorklogStore.enqueueDays
  dsimp only
  rw [if_neg (Int.not_le.mpr hspan), hjira]
  exact (foldl_markDay (fun d => ⟨integrationId, userId, taskId, d⟩) _ s).2 workDate
    (mem_daysBetween.mpr ⟨hfirst, hlast⟩)

/-- A span that counts on a day reaches it. -/
theorem reaches_of_spanSeconds {accountId : String} {day : WorklogDay} {span : Int × Int}
    (h : s.spanSeconds accountId day span ≠ 0) :
    span.1 < span.2 ∧ dateOf span.1 ≤ day.workDate ∧ day.workDate ≤ dateOf (span.2 - 1) := by
  by_contra hnot
  refine h ((Library.sum_map_eq_zero_iff fun p _ => overlapSeconds_nonneg _ p _ _).mpr fun p _ => ?_)
  unfold overlapSeconds
  have hle := p.least_le span.2
  have hnext : startOfDay (day.workDate + 1) = startOfDay day.workDate + days 1 := by
    unfold startOfDay days seconds
    omega
  have hfirst := startOfDay_le_iff (t := span.1) (d := day.workDate + 1)
  rw [hnext] at hfirst
  have hlast := startOfDay_le_iff (t := span.2 - 1) (d := day.workDate)
  rw [Int.max_eq_left]
  · rfl
  · omega

/-! ## What a row counts for -/

/-- The seconds of a segment on a day of the user's work on the task. -/
def WorklogStore.segmentShare (s : WorklogStore) (accountId : String) (day : WorklogDay) (g : Segment) : Int :=
  (s.segmentSpan? day.userId day.taskId g).elim 0 (s.spanSeconds accountId day)

/-- The seconds of a manual entry on a day of the user's work on the task. -/
def WorklogStore.manualShare (s : WorklogStore) (accountId : String) (day : WorklogDay)
    (m : ManualTimeEntry) : Int :=
  (WorklogStore.manualSpan? day.userId day.taskId m).elim 0 (s.spanSeconds accountId day)

/-- What is tracked is the sum of the shares. -/
theorem trackedOn_eq_shares (s : WorklogStore) (accountId : String) (day : WorklogDay) :
    s.trackedOn accountId day =
      (s.segments.map (s.segmentShare accountId day)).sum +
        (s.manualTimeEntries.map (s.manualShare accountId day)).sum := by
  unfold WorklogStore.trackedOn WorklogStore.spans
  rw [List.map_append, List.sum_append, sum_filterMap, sum_filterMap]
  rfl

variable {accountId : String} {day : WorklogDay}

/-- **A segment that counts on a day is marked by its trigger.** -/
theorem enqueueSegment_isDirty (hjira : jira day.taskId = some day.integrationId) {g : Segment}
    (hshare : s.segmentShare accountId day g ≠ 0) : (s.enqueueSegment jira now g).IsDirty day := by
  unfold WorklogStore.segmentShare WorklogStore.segmentSpan? at hshare
  unfold WorklogStore.enqueueSegment
  dsimp only
  split at hshare
  · rename_i endedAt session hended hsession
    split at hshare
    · rename_i howner
      obtain ⟨hspan, hfirst, hlast⟩ := reaches_of_spanSeconds hshare
      rw [hsession, Option.bind_some, Option.bind_some, howner.1, howner.2, hended]
      exact enqueueDays_isDirty hjira hspan hfirst hlast
    · exact absurd rfl hshare
  · exact absurd rfl hshare

/-- **A manual entry that counts on a day is marked by its trigger.** -/
theorem enqueueManual_isDirty (hjira : jira day.taskId = some day.integrationId) {m : ManualTimeEntry}
    (hshare : s.manualShare accountId day m ≠ 0) : (s.enqueueManual jira now m).IsDirty day := by
  unfold WorklogStore.manualShare WorklogStore.manualSpan? at hshare
  unfold WorklogStore.enqueueManual
  split at hshare
  · rename_i howner
    obtain ⟨huser, htask, happroved⟩ := howner
    obtain ⟨hspan, hfirst, hlast⟩ := reaches_of_spanSeconds hshare
    rw [huser, htask, if_pos happroved]
    exact enqueueDays_isDirty hjira hspan hfirst hlast
  · exact absurd rfl hshare

theorem enqueueSegment_marks (g : Segment) : Marks s (s.enqueueSegment jira now g) :=
  enqueueDays_marks _ _ _ _

theorem enqueueManual_marks (m : ManualTimeEntry) : Marks s (s.enqueueManual jira now m) :=
  enqueueDays_marks _ _ _ _

theorem foldl_marks {ρ : Type} {enqueue : WorklogStore → ρ → WorklogStore}
    (hmarks : ∀ s r, Marks s (enqueue s r)) (rows : List ρ) (s : WorklogStore) :
    Marks s (rows.foldl enqueue s) := by
  induction rows generalizing s with
  | nil => exact .refl s
  | cons first rest ih => exact (hmarks s first).trans (ih (enqueue s first))

/-- The triggers of several rows, each of which marks what it counts for. -/
theorem foldl_isDirty {ρ : Type} {enqueue : WorklogStore → ρ → WorklogStore}
    {share : WorklogStore → ρ → Int} (hmarks : ∀ s r, Marks s (enqueue s r))
    (hshare : ∀ s dirtyDays r, share { s with dirtyDays } r = share s r)
    (hdirty : ∀ s r, share s r ≠ 0 → (enqueue s r).IsDirty day) (rows : List ρ) (s : WorklogStore) :
    ∀ r ∈ rows, share s r ≠ 0 → (rows.foldl enqueue s).IsDirty day := by
  induction rows generalizing s with
  | nil => exact fun _ h => (nomatch h)
  | cons first rest ih =>
    intro r hr hne
    rcases List.mem_cons.mp hr with rfl | hmem
    · exact (foldl_marks hmarks rest _).2 day (hdirty s r hne)
    · obtain ⟨⟨dirtyDays, heq⟩, _⟩ := hmarks s first
      refine ih (enqueue s first) r hmem ?_
      rw [heq, hshare]
      exact hne

/-! ## A write to a source -/

/-- Every segment has its session. -/
def WorklogStore.HasSessions (s : WorklogStore) : Prop := ∀ g ∈ s.segments, (s.session? g.sessionId).isSome

/-- What a write to the sources leaves: the other tables, the marks, and a mark on every day that it
changes. -/
structure SourcesChange (jira : Nat → Option Nat) (s s' : WorklogStore) : Prop where
  exports : s'.exports = s.exports
  connections : s'.connections = s.connections
  periods : s'.periods = s.periods
  sessions : s.HasSessions → s'.HasSessions
  keeps : ∀ day, s.IsDirty day → s'.IsDirty day
  marks : s.HasSessions → ∀ accountId (day : WorklogDay), jira day.taskId = some day.integrationId →
    s'.trackedOn accountId day ≠ s.trackedOn accountId day → s'.IsDirty day

theorem SourcesChange.refl (s : WorklogStore) : SourcesChange jira s s where
  exports := rfl
  connections := rfl
  periods := rfl
  sessions := id
  keeps := fun _ h => h
  marks := fun _ _ _ _ hne => absurd rfl hne

theorem SourcesChange.trans (h : SourcesChange jira s s') (h' : SourcesChange jira s' s'') :
    SourcesChange jira s s'' where
  exports := h'.exports.trans h.exports
  connections := h'.connections.trans h.connections
  periods := h'.periods.trans h.periods
  sessions := fun hs => h'.sessions (h.sessions hs)
  keeps := fun day hday => h'.keeps day (h.keeps day hday)
  marks := by
    intro hs accountId day hjira hne
    by_cases hfirst : s'.trackedOn accountId day = s.trackedOn accountId day
    · exact h'.marks (h.sessions hs) accountId day hjira fun hsecond => hne (hsecond.trans hfirst)
    · exact h'.keeps day (h.marks hs accountId day hjira hfirst)

/-- The triggers of segments, one after the other. -/
def WorklogStore.enqueueSegments (jira : Nat → Option Nat) (now : Int) (s : WorklogStore)
    (rows : List Segment) : WorklogStore := rows.foldl (·.enqueueSegment jira now ·) s

/-- The triggers of manual entries, one after the other. -/
def WorklogStore.enqueueManuals (jira : Nat → Option Nat) (now : Int) (s : WorklogStore)
    (rows : List ManualTimeEntry) : WorklogStore := rows.foldl (·.enqueueManual jira now ·) s

/-- **A write to the segments**: the rows that are written have triggers, and a day for which they count
nothing has the same sum. -/
theorem segments_change (rows : List Segment) {segments : List Segment} {nextId : Nat}
    (hsessions : s.HasSessions → ∀ g ∈ segments, (s.session? g.sessionId).isSome)
    (hsum : ∀ share : Segment → Int, (∀ r ∈ rows, share r = 0) →
      (segments.map share).sum = (s.segments.map share).sum) :
    SourcesChange jira s { s.enqueueSegments jira now rows with segments, nextId } := by
  have hrows : ∀ accountId day, jira day.taskId = some day.integrationId → ∀ r ∈ rows,
      s.segmentShare accountId day r ≠ 0 → (s.enqueueSegments jira now rows).IsDirty day := by
    intro accountId day hjira
    have hdirty : ∀ (s : WorklogStore) r, s.segmentShare accountId day r ≠ 0 →
        (s.enqueueSegment jira now r).IsDirty day := fun _ _ hne => enqueueSegment_isDirty hjira hne
    exact foldl_isDirty (fun _ r => enqueueSegment_marks r) (fun _ _ _ => rfl) hdirty rows s
  obtain ⟨⟨dirtyDays, heq⟩, hkeeps⟩ : Marks s (s.enqueueSegments jira now rows) :=
    foldl_marks (fun _ r => enqueueSegment_marks r) rows s
  rw [heq] at hkeeps hrows ⊢
  refine ⟨rfl, rfl, rfl, hsessions, hkeeps, fun _ accountId day hjira hne => ?_⟩
  by_contra hclean
  refine hne ?_
  rw [trackedOn_eq_shares, trackedOn_eq_shares]
  refine congrArg (· + _) (hsum (s.segmentShare accountId day) fun r hr => ?_)
  by_contra hcounts
  exact hclean (hrows accountId day hjira r hr hcounts)

/-- **A write to the manual entries**, likewise. -/
theorem manual_change (rows : List ManualTimeEntry) {manualTimeEntries : List ManualTimeEntry}
    {nextId : Nat}
    (hsum : ∀ share : ManualTimeEntry → Int, (∀ r ∈ rows, share r = 0) →
      (manualTimeEntries.map share).sum = (s.manualTimeEntries.map share).sum) :
    SourcesChange jira s { s.enqueueManuals jira now rows with manualTimeEntries, nextId } := by
  have hrows : ∀ accountId day, jira day.taskId = some day.integrationId → ∀ r ∈ rows,
      s.manualShare accountId day r ≠ 0 → (s.enqueueManuals jira now rows).IsDirty day := by
    intro accountId day hjira
    have hdirty : ∀ (s : WorklogStore) r, s.manualShare accountId day r ≠ 0 →
        (s.enqueueManual jira now r).IsDirty day := fun _ _ hne => enqueueManual_isDirty hjira hne
    exact foldl_isDirty (fun _ r => enqueueManual_marks r) (fun _ _ _ => rfl) hdirty rows s
  obtain ⟨⟨dirtyDays, heq⟩, hkeeps⟩ : Marks s (s.enqueueManuals jira now rows) :=
    foldl_marks (fun _ r => enqueueManual_marks r) rows s
  rw [heq] at hkeeps hrows ⊢
  refine ⟨rfl, rfl, rfl, id, hkeeps, fun _ accountId day hjira hne => ?_⟩
  by_contra hclean
  refine hne ?_
  rw [trackedOn_eq_shares, trackedOn_eq_shares]
  refine congrArg (_ + ·) (hsum (s.manualShare accountId day) fun r hr => ?_)
  by_contra hcounts
  exact hclean (hrows accountId day hjira r hr hcounts)

theorem enqueueSegments_rows (jira : Nat → Option Nat) (now : Int) (s : WorklogStore)
    (rows : List Segment) :
    (s.enqueueSegments jira now rows).segments = s.segments ∧
      (s.enqueueSegments jira now rows).nextId = s.nextId := by
  obtain ⟨⟨_, heq⟩, _⟩ : Marks s (s.enqueueSegments jira now rows) :=
    foldl_marks (fun _ r => enqueueSegment_marks r) rows s
  rw [heq]
  exact ⟨rfl, rfl⟩

theorem enqueueManuals_rows (jira : Nat → Option Nat) (now : Int) (s : WorklogStore)
    (rows : List ManualTimeEntry) :
    (s.enqueueManuals jira now rows).manualTimeEntries = s.manualTimeEntries ∧
      (s.enqueueManuals jira now rows).nextId = s.nextId := by
  obtain ⟨⟨_, heq⟩, _⟩ : Marks s (s.enqueueManuals jira now rows) :=
    foldl_marks (fun _ r => enqueueManual_marks r) rows s
  rw [heq]
  exact ⟨rfl, rfl⟩

/-- Rows that count for nothing, before and after, may be replaced. -/
theorem sum_replace {ρ : Type} {share : ρ → Int} {selected : ρ → Bool} {row : ρ} {rows : List ρ}
    (hold : ∀ r ∈ rows.filter selected, share r = 0) (hnew : share row = 0) :
    ((updateWhere selected (fun _ => row) rows).map share).sum = (rows.map share).sum := by
  refine (sum_of_forall₂ (forall₂_updateWhere (fun _ _ _ => rfl) fun r hr hselected => ?_)).symm
  rw [hnew]
  exact hold r (List.mem_filter.mpr ⟨hr, hselected⟩)

/-- Rows that count for nothing may be deleted. -/
theorem sum_delete {ρ : Type} {share : ρ → Int} {keep : ρ → Bool} {rows : List ρ}
    (hold : ∀ r ∈ rows, keep r = false → share r = 0) :
    ((rows.filter keep).map share).sum = (rows.map share).sum := by
  rw [Library.sum_filter]
  congr 1
  refine List.map_congr_left fun r hr => ?_
  split
  · rfl
  · rename_i hkeep
    exact (hold r hr (by simpa using hkeep)).symm

theorem sum_append_zero {ρ : Type} {share : ρ → Int} {row : ρ} {rows : List ρ} (hnew : share row = 0) :
    ((rows ++ [row]).map share).sum = (rows.map share).sum := by
  rw [List.map_append, List.sum_append, List.map_singleton, List.sum_singleton, hnew, Int.add_zero]

/-- A new session has no segments yet. -/
theorem insertSession_change (row : WorkSession) (nextId : Nat) :
    SourcesChange jira s { s with workSessions := s.workSessions ++ [row], nextId } := by
  have hfound : ∀ sessionId, (s.session? sessionId).isSome →
      WorklogStore.session? { s with workSessions := s.workSessions ++ [row], nextId } sessionId =
        s.session? sessionId := by
    intro sessionId hsome
    obtain ⟨session, hsession⟩ := Option.isSome_iff_exists.mp hsome
    unfold WorklogStore.session? at hsession ⊢
    rw [List.find?_append, hsession]
    rfl
  refine ⟨rfl, rfl, rfl, ?_, fun _ h => h, ?_⟩
  · intro hs g hg
    have hsome := hs g hg
    rw [hfound g.sessionId hsome]
    exact hsome
  · intro hs accountId day _ hne
    refine absurd ?_ hne
    rw [trackedOn_eq_shares, trackedOn_eq_shares]
    refine congrArg (· + _) (congrArg List.sum (List.map_congr_left fun g hg => ?_))
    show Option.elim (WorklogStore.segmentSpan? _ day.userId day.taskId g) 0 _ =
      Option.elim (s.segmentSpan? day.userId day.taskId g) 0 _
    unfold WorklogStore.segmentSpan?
    rw [hfound g.sessionId (hs g hg)]
    rfl

/-- **A write to a source marks the days that it changes**, and keeps everything else. -/
theorem SourceChange.apply_ensures (change : SourceChange) :
    Ensures (change.apply jira now s) (SourcesChange jira s) := by
  cases change with
  | insertSession row =>
    unfold SourceChange.apply
    rw [Library.ensures_ok]
    exact insertSession_change _ _
  | insertSegment row =>
    unfold SourceChange.apply
    refine ensures_ite (fun _ => by simp) fun hsession => ?_
    rw [Library.ensures_ok]
    obtain ⟨hsegments, hnext⟩ := enqueueSegments_rows jira now s [row]
    show SourcesChange jira s { s.enqueueSegments jira now [row] with
      segments := (s.enqueueSegments jira now [row]).segments ++
        [{ row with id := (s.enqueueSegments jira now [row]).nextId }]
      nextId := (s.enqueueSegments jira now [row]).nextId + 1 }
    rw [hsegments, hnext]
    -- the trigger does not read the id, which the row gets
    refine segments_change [{ row with id := s.nextId }] (fun hs g hg => ?_) fun share hzero => ?_
    · rcases List.mem_append.mp hg with hold | hnew
      · exact hs g hold
      · rw [List.mem_singleton.mp hnew]
        exact Option.isSome_iff_ne_none.mpr (by simpa using hsession)
    · exact sum_append_zero (hzero _ List.mem_cons_self)
  | updateSegment row =>
    unfold SourceChange.apply
    refine ensures_ite (fun _ => ?_) fun _ => ensures_ite (fun _ => by simp) fun hsession => ?_
    · rw [Library.ensures_ok]
      exact .refl s
    · rw [Library.ensures_ok]
      obtain ⟨hsegments, _⟩ :=
        enqueueSegments_rows jira now s (s.segments.filter (·.id == row.id) ++ [row])
      have hfold : (s.enqueueSegments jira now (s.segments.filter (·.id == row.id))).enqueueSegment
          jira now row = s.enqueueSegments jira now (s.segments.filter (·.id == row.id) ++ [row]) := by
        unfold WorklogStore.enqueueSegments
        rw [List.foldl_append]
        rfl
      show SourcesChange jira s { (s.enqueueSegments jira now
          (s.segments.filter (·.id == row.id))).enqueueSegment jira now row with
        segments := updateWhere (·.id == row.id) (fun _ => row) ((s.enqueueSegments jira now
          (s.segments.filter (·.id == row.id))).enqueueSegment jira now row).segments }
      rw [hfold, hsegments]
      refine segments_change _ (fun hs g hg => ?_) fun share hzero => ?_
      · rcases mem_updateWhere_cases hg with ⟨hold, _⟩ | ⟨_, _, _, rfl⟩
        · exact hs g hold
        · exact Option.isSome_iff_ne_none.mpr (by simpa using hsession)
      · exact sum_replace (fun r hr => hzero r (List.mem_append_left _ hr))
          (hzero row (List.mem_append_right _ List.mem_cons_self))
  | deleteSegment id =>
    unfold SourceChange.apply
    rw [Library.ensures_ok]
    obtain ⟨hsegments, _⟩ := enqueueSegments_rows jira now s (s.segments.filter (·.id == id))
    show SourcesChange jira s { s.enqueueSegments jira now (s.segments.filter (·.id == id)) with
      segments := (s.enqueueSegments jira now (s.segments.filter (·.id == id))).segments.filter
        (·.id != id) }
    rw [hsegments]
    refine segments_change _ (fun hs g hg => hs g (List.mem_filter.mp hg).1) fun share hzero => ?_
    exact sum_delete fun r hr hdropped => hzero r (List.mem_filter.mpr ⟨hr, by simpa using hdropped⟩)
  | insertManual row =>
    unfold SourceChange.apply
    refine ensures_ite (fun _ => by simp) fun _ => ?_
    rw [Library.ensures_ok]
    obtain ⟨hmanual, hnext⟩ := enqueueManuals_rows jira now s [row]
    show SourcesChange jira s { s.enqueueManuals jira now [row] with
      manualTimeEntries := (s.enqueueManuals jira now [row]).manualTimeEntries ++
        [{ row with id := (s.enqueueManuals jira now [row]).nextId }]
      nextId := (s.enqueueManuals jira now [row]).nextId + 1 }
    rw [hmanual, hnext]
    refine manual_change [{ row with id := s.nextId }] fun share hzero => ?_
    exact sum_append_zero (hzero _ List.mem_cons_self)
  | updateManual row =>
    unfold SourceChange.apply
    refine ensures_ite (fun _ => ?_) fun _ => ensures_ite (fun _ => by simp) fun _ => ?_
    · rw [Library.ensures_ok]
      exact .refl s
    · rw [Library.ensures_ok]
      obtain ⟨hmanual, _⟩ :=
        enqueueManuals_rows jira now s (s.manualTimeEntries.filter (·.id == row.id) ++ [row])
      have hfold : (s.enqueueManuals jira now
          (s.manualTimeEntries.filter (·.id == row.id))).enqueueManual jira now row =
          s.enqueueManuals jira now (s.manualTimeEntries.filter (·.id == row.id) ++ [row]) := by
        unfold WorklogStore.enqueueManuals
        rw [List.foldl_append]
        rfl
      show SourcesChange jira s { (s.enqueueManuals jira now
          (s.manualTimeEntries.filter (·.id == row.id))).enqueueManual jira now row with
        manualTimeEntries := updateWhere (·.id == row.id) (fun _ => row) ((s.enqueueManuals jira now
          (s.manualTimeEntries.filter (·.id == row.id))).enqueueManual jira now row).manualTimeEntries }
      rw [hfold, hmanual]
      refine manual_change _ fun share hzero => ?_
      exact sum_replace (fun r hr => hzero r (List.mem_append_left _ hr))
        (hzero row (List.mem_append_right _ List.mem_cons_self))
  | deleteManual id =>
    unfold SourceChange.apply
    rw [Library.ensures_ok]
    obtain ⟨hmanual, _⟩ :=
      enqueueManuals_rows jira now s (s.manualTimeEntries.filter (·.id == id))
    show SourcesChange jira s { s.enqueueManuals jira now (s.manualTimeEntries.filter (·.id == id)) with
      manualTimeEntries := (s.enqueueManuals jira now
        (s.manualTimeEntries.filter (·.id == id))).manualTimeEntries.filter (·.id != id) }
    rw [hmanual]
    refine manual_change _ fun share hzero => ?_
    exact sum_delete fun r hr hdropped => hzero r (List.mem_filter.mpr ⟨hr, by simpa using hdropped⟩)

/-- The writes of a transaction, one after the other. -/
theorem transaction_ensures (changes : List SourceChange) :
    Ensures (changes.foldlM (SourceChange.apply jira now) s) (SourcesChange jira s) := by
  induction changes generalizing s with
  | nil =>
    rw [List.foldlM_nil, Library.ensures_pure]
    exact .refl s
  | cons change changes ih =>
    rw [List.foldlM_cons]
    exact (change.apply_ensures).bind fun s₁ h₁ => ih.mono fun s₂ h₂ => h₁.trans h₂

end

/-! ## A pass of the stager -/

/-- The most that an export takes. -/
def maxDesiredSeconds : Int := 2147483647

section

variable {s s' s'' : WorklogStore} {observedAt : Int} {accountId : String}
variable {integrationId userId : Nat}

/-- Only exports are written. -/
def WritesExports (s s' : WorklogStore) : Prop := ∃ exports nextId, s' = { s with exports, nextId }

theorem WritesExports.refl (s : WorklogStore) : WritesExports s s := ⟨s.exports, s.nextId, rfl⟩

theorem WritesExports.trans (h : WritesExports s s') (h' : WritesExports s' s'') : WritesExports s s'' := by
  obtain ⟨_, _, rfl⟩ := h
  obtain ⟨exports, nextId, rfl⟩ := h'
  exact ⟨exports, nextId, rfl⟩

theorem WritesExports.trackedOn (h : WritesExports s s') (accountId : String) (day : WorklogDay) :
    s'.trackedOn accountId day = s.trackedOn accountId day := by
  obtain ⟨_, _, rfl⟩ := h
  rfl

/-- The exports of the user at the integration are of this account. -/
def OwnedBy (integrationId userId : Nat) (accountId : String) (s : WorklogStore) : Prop :=
  ∀ e ∈ s.exports, e.integrationId = integrationId → e.userId = userId → e.accountId = accountId

theorem trackedOn_nonneg (s : WorklogStore) (accountId : String) (day : WorklogDay) :
    0 ≤ s.trackedOn accountId day :=
  Library.sum_map_nonneg fun span _ =>
    Library.sum_map_nonneg fun p _ => overlapSeconds_nonneg day.workDate p span.1 span.2

theorem desiredOn_append {row : WorklogExport} {nextId : Nat} {day : WorklogDay}
    (hnone : s.export? row.day = none) :
    WorklogStore.desiredOn { s with exports := s.exports ++ [row], nextId } day =
      if day = row.day then row.desiredSeconds else s.desiredOn day := by
  unfold WorklogStore.desiredOn WorklogStore.export? at *
  rw [List.find?_append]
  by_cases hday : day = row.day
  · rw [if_pos hday, hday, hnone, Option.none_or, List.find?_singleton, if_pos (beq_self_eq_true _)]
    rfl
  · have hother : ¬ (row.day == day) = true := fun heq => hday (beq_iff_eq.mp heq).symm
    rw [if_neg hday, List.find?_singleton, if_neg hother, Option.or_none]

theorem desiredOn_update {f : WorklogExport → WorklogExport} {day other : WorklogDay}
    (hday : ∀ e, (f e).day = e.day) :
    WorklogStore.desiredOn { s with exports := updateWhere (·.day == day) f s.exports } other =
      if other = day then (s.export? day).elim 0 fun e => (f e).desiredSeconds else s.desiredOn other := by
  unfold WorklogStore.desiredOn WorklogStore.export?
  dsimp only
  rw [Library.find?_updateWhere fun e => by rw [hday]]
  cases hfind : s.exports.find? (·.day == other) with
  | none =>
    split
    · rename_i heq
      rw [← heq, hfind]
      rfl
    · rfl
  | some e =>
    have he : e.day = other := by simpa using List.find?_some hfind
    by_cases heq : other = day
    · subst heq
      rw [if_pos rfl, hfind, Option.map_some, if_pos (beq_iff_eq.mpr he)]
      rfl
    · have hne : ¬ (e.day == day) = true := fun h => heq (he.symm.trans (beq_iff_eq.mp h))
      rw [if_neg heq, Option.map_some, if_neg hne]

/-- A change of the exports that keeps the days and the seconds. -/
theorem desiredOn_kept {selected : WorklogExport → Bool} {f : WorklogExport → WorklogExport}
    {day : WorklogDay} (hday : ∀ e, (f e).day = e.day)
    (hseconds : ∀ e, (f e).desiredSeconds = e.desiredSeconds) :
    WorklogStore.desiredOn { s with exports := updateWhere selected f s.exports } day = s.desiredOn day := by
  unfold WorklogStore.desiredOn WorklogStore.export?
  dsimp only
  rw [Library.find?_updateWhere fun e => by rw [hday]]
  cases s.exports.find? (·.day == day) with
  | none => rfl
  | some e =>
    rw [Option.map_some, Option.elim_some, Option.elim_some]
    split
    · exact hseconds e
    · rfl

/-- **What a staged day writes**: its export gets the sum, where it is of the account; the others stay. -/
theorem stageDay_ensures {staged : Nat} {day : WorklogDay} :
    Ensures (WorklogStore.stageDay observedAt accountId (s, staged) day) fun r =>
      WritesExports s r.1 ∧
      (∀ other, other ≠ day → r.1.desiredOn other = s.desiredOn other) ∧
      ((∀ e ∈ s.exports, e.day = day → e.accountId = accountId) →
        r.1.desiredOn day = min (s.trackedOn accountId day) maxDesiredSeconds) ∧
      ∀ e ∈ r.1.exports, (∃ old ∈ s.exports, old.day = e.day ∧ old.accountId = e.accountId) ∨
        e.day = day ∧ e.accountId = accountId := by
  unfold WorklogStore.stageDay
  dsimp only
  rw [sum_worklogEntries]
  refine ensures_ite (fun _ => by simp) fun _ => ?_
  have hsame : ∀ e ∈ s.exports, (∃ old ∈ s.exports, old.day = e.day ∧ old.accountId = e.accountId) ∨
      e.day = day ∧ e.accountId = accountId := fun e he => .inl ⟨e, he, rfl, rfl⟩
  split
  · rename_i hnone
    refine ensures_ite (fun hzero => ?_) fun hpos => ?_
    · rw [Library.ensures_ok]
      refine ⟨.refl s, fun _ _ => rfl, fun _ => ?_, hsame⟩
      have hnonneg := trackedOn_nonneg s accountId day
      unfold WorklogStore.desiredOn maxDesiredSeconds
      rw [hnone]
      show (0 : Int) = _
      omega
    · rw [Library.ensures_ok]
      refine ⟨⟨_, _, rfl⟩, fun other hother => ?_, fun _ => ?_, fun e he => ?_⟩
      · exact (desiredOn_append hnone).trans (if_neg hother)
      · exact (desiredOn_append hnone).trans (if_pos rfl)
      · rcases List.mem_append.mp he with hold | hnew
        · exact hsame e hold
        · rw [List.mem_singleton.mp hnew]
          exact .inr ⟨rfl, rfl⟩
  · rename_i existing hexisting
    refine ensures_ite (fun hchanged => ?_) fun hunchanged => ?_
    · rw [Library.ensures_ok]
      refine ⟨⟨_, _, rfl⟩, fun other hother => ?_, fun _ => ?_, fun e he => ?_⟩
      · dsimp only
        rw [desiredOn_update, if_neg hother]
        exact fun _ => rfl
      · dsimp only
        rw [desiredOn_update, if_pos rfl, hexisting]
        · rfl
        · exact fun _ => rfl
      · rcases mem_updateWhere_cases he with ⟨hold, _⟩ | ⟨old, hold, _, rfl⟩
        · exact hsame e hold
        · exact .inl ⟨old, hold, rfl, rfl⟩
    · rw [Library.ensures_ok]
      refine ⟨.refl s, fun _ _ => rfl, fun howned => ?_, hsame⟩
      -- the export is of the account, so it was left because it has the sum already
      have hday : existing.day = day := by simpa using List.find?_some hexisting
      have haccount := howned existing (List.mem_of_find?_eq_some hexisting) hday
      have hequal := not_not.mp (not_and.mp hunchanged haccount)
      unfold WorklogStore.desiredOn
      rw [hexisting]
      exact hequal.1

/-- What staged days leave for one user at one integration: the account, and exports that stay or get the
sum. -/
structure DaysStaged (integrationId userId : Nat) (accountId : String) (days : List WorklogDay)
    (s s' : WorklogStore) : Prop where
  writes : WritesExports s s'
  owned : OwnedBy integrationId userId accountId s'
  each : ∀ day : WorklogDay, day.integrationId = integrationId → day.userId = userId →
    s'.desiredOn day = s.desiredOn day ∨
      s'.desiredOn day = min (s.trackedOn accountId day) maxDesiredSeconds
  done : ∀ day ∈ days, day.integrationId = integrationId → day.userId = userId →
    s'.desiredOn day = min (s.trackedOn accountId day) maxDesiredSeconds

/-- **The days of a connection are staged**: for the user in question they have the user's account. -/
theorem stageDays_ensures {connected : String} {days : List WorklogDay} {staged : Nat}
    (howned : OwnedBy integrationId userId accountId s)
    (hdays : ∀ day ∈ days, day.integrationId = integrationId → day.userId = userId →
      connected = accountId) :
    Ensures (days.foldlM (WorklogStore.stageDay observedAt connected) (s, staged)) fun r =>
      DaysStaged integrationId userId accountId days s r.1 := by
  induction days generalizing s staged with
  | nil =>
    rw [List.foldlM_nil, Library.ensures_pure]
    exact ⟨.refl s, howned, fun _ _ _ => .inl rfl, fun _ h => (nomatch h)⟩
  | cons first rest ih =>
    rw [List.foldlM_cons]
    refine stageDay_ensures.bind ?_
    rintro ⟨s₁, staged₁⟩ ⟨hwrites, hothers, hfirst, hexports⟩
    have howned₁ : OwnedBy integrationId userId accountId s₁ := by
      intro e he hi hu
      rcases hexports e he with ⟨old, hold, hday, haccount⟩ | ⟨hday, haccount⟩
      · have hi' : old.integrationId = e.integrationId := congrArg WorklogDay.integrationId hday
        have hu' : old.userId = e.userId := congrArg WorklogDay.userId hday
        exact haccount ▸ howned old hold (hi'.trans hi) (hu'.trans hu)
      · rw [haccount]
        refine hdays first List.mem_cons_self ?_ ?_
        · rw [← hday]
          exact hi
        · rw [← hday]
          exact hu
    refine (ih howned₁ fun day hday => hdays day (List.mem_cons_of_mem first hday)).mono ?_
    rintro ⟨s₂, staged₂⟩ hrest
    have htracked : ∀ day, s₁.trackedOn accountId day = s.trackedOn accountId day :=
      hwrites.trackedOn accountId
    -- after the first day its export has the sum, and later ones leave that or write it again
    have heach : ∀ day : WorklogDay, day.integrationId = integrationId → day.userId = userId →
        s₁.desiredOn day = s.desiredOn day ∨
          s₁.desiredOn day = min (s.trackedOn accountId day) maxDesiredSeconds := by
      intro day hi hu
      by_cases hday : day = first
      · subst hday
        have hconnected := hdays day List.mem_cons_self hi hu
        subst hconnected
        refine .inr (hfirst fun e he heq => howned e he ?_ ?_)
        · rw [← hi, ← heq]
          rfl
        · rw [← hu, ← heq]
          rfl
      · exact .inl (hothers day hday)
    refine ⟨hwrites.trans hrest.writes, hrest.owned, fun day hi hu => ?_, fun day hmem hi hu => ?_⟩
    · rcases hrest.each day hi hu with hsame | hsum
      · rw [hsame]
        exact heach day hi hu
      · rw [hsum, htracked]
        exact .inr rfl
    · rcases List.mem_cons.mp hmem with rfl | hin
      · have hconnected := hdays day List.mem_cons_self hi hu
        subst hconnected
        have hnow := hfirst fun e he heq => howned e he (by rw [← hi, ← heq]; rfl)
          (by rw [← hu, ← heq]; rfl)
        rcases hrest.each day hi hu with hsame | hsum
        · rw [hsame]
          exact hnow
        · rw [hsum, htracked]
      · rw [hrest.done day hin hi hu, htracked]

end

/-! ## The invariant -/

/-- The days of the user on tasks that were imported from the integration. -/
def OfConnection (jira : Nat → Option Nat) (integrationId userId : Nat) (day : WorklogDay) : Prop :=
  day.integrationId = integrationId ∧ day.userId = userId ∧ jira day.taskId = some integrationId

/-- The connection has one account, its exports too, and each of its days is dirty or staged. -/
structure StagingInvariant (jira : Nat → Option Nat) (integrationId userId : Nat) (accountId : String)
    (s : WorklogStore) : Prop where
  sessions : s.HasSessions
  account : ∀ c ∈ s.connections, c.isOf integrationId userId → c.accountId = accountId
  owned : OwnedBy integrationId userId accountId s
  fresh : Fresh (OfConnection jira integrationId userId) s.IsDirty
    (fun day => min (s.trackedOn accountId day) maxDesiredSeconds) s.desiredOn

section

variable {jira : Nat → Option Nat} {integrationId userId : Nat} {accountId : String}
variable {s s' : WorklogStore}

theorem StagingInvariant.of_change (h : StagingInvariant jira integrationId userId accountId s)
    (hchange : SourcesChange jira s s') : StagingInvariant jira integrationId userId accountId s' where
  sessions := hchange.sessions h.sessions
  account := by
    rw [hchange.connections]
    exact h.account
  owned := by
    unfold OwnedBy
    rw [hchange.exports]
    exact h.owned
  fresh := by
    have hdesired : s'.desiredOn = s.desiredOn := by
      unfold WorklogStore.desiredOn WorklogStore.export?
      rw [hchange.exports]
    rw [hdesired]
    refine h.fresh.change (fun day _ hday => hchange.keeps day hday) ?_
    rintro day ⟨hi, _, hjira⟩ hne
    refine hchange.marks h.sessions accountId day (hi ▸ hjira) fun hsame => hne ?_
    rw [hsame]

/-- **The stager keeps the invariant and the sources**, connection by connection. -/
theorem stageConnection_ensures {observedAt : Int} {dayLimit staged : Nat} {c : WorklogConnection}
    (h : StagingInvariant jira integrationId userId accountId s)
    (hc : c.isOf integrationId userId → c.accountId = accountId) :
    Ensures (WorklogStore.stageConnection observedAt dayLimit (s, staged) c) fun r =>
      StagingInvariant jira integrationId userId accountId r.1 ∧
        ∀ day, r.1.trackedOn accountId day = s.trackedOn accountId day := by
  unfold WorklogStore.stageConnection
  dsimp only
  refine (stageDays_ensures h.owned fun day hday hi hu => hc ?_).bind ?_
  · obtain ⟨d, hd, rfl⟩ := List.mem_map.mp hday
    have hselected := (List.mem_filter.mp (Library.mem_orderBy.mp (List.mem_of_mem_take hd))).2
    rw [Bool.and_eq_true, Bool.and_eq_true, beq_iff_eq, beq_iff_eq] at hselected
    have hi' : d.integrationId = integrationId := hi
    have hu' : d.userId = userId := hu
    simp [UserConnection.isOf, ← hselected.1.1, ← hselected.1.2, hi', hu']
  · rintro ⟨s₁, staged₁⟩ ⟨hwrites, howned, heach, hdone⟩
    rw [Library.ensures_pure]
    obtain ⟨exports, nextId, rfl⟩ := hwrites
    refine ⟨⟨h.sessions, ?_, howned, ?_⟩, fun _ => rfl⟩
    · intro c' hc' hof
      rcases mem_updateWhere_cases hc' with ⟨hold, _⟩ | ⟨old, hold, _, rfl⟩
      · exact h.account c' hold hof
      · exact h.account old hold hof
    · refine h.fresh.take (fun day hon => heach day hon.1 hon.2.1) fun day hon hdirty hclean => ?_
      refine hdone day ?_ hon.1 hon.2.1
      obtain ⟨d, hd, rfl⟩ := hdirty
      by_contra hleft
      refine hclean ⟨d, List.mem_filter.mpr ⟨hd, ?_⟩, rfl⟩
      rw [Bool.not_eq_true', List.contains_eq_mem, decide_eq_false_iff_not]
      exact hleft

theorem stageConnections_ensures {observedAt : Int} {dayLimit staged : Nat}
    {connections : List WorklogConnection}
    (h : StagingInvariant jira integrationId userId accountId s)
    (hconnections : ∀ c ∈ connections, c.isOf integrationId userId → c.accountId = accountId) :
    Ensures (connections.foldlM (WorklogStore.stageConnection observedAt dayLimit) (s, staged)) fun r =>
      StagingInvariant jira integrationId userId accountId r.1 ∧
        ∀ day, r.1.trackedOn accountId day = s.trackedOn accountId day := by
  induction connections generalizing s staged with
  | nil =>
    rw [List.foldlM_nil, Library.ensures_pure]
    exact ⟨h, fun _ => rfl⟩
  | cons c rest ih =>
    rw [List.foldlM_cons]
    refine (stageConnection_ensures h (hconnections c List.mem_cons_self)).bind ?_
    rintro ⟨s₁, staged₁⟩ ⟨h₁, htracked⟩
    refine (ih h₁ fun c' hc' => hconnections c' (List.mem_cons_of_mem c hc')).mono ?_
    rintro r ⟨hr, htracked'⟩
    exact ⟨hr, fun day => (htracked' day).trans (htracked day)⟩

theorem stageDueJiraWorklogs_ensures (h : StagingInvariant jira integrationId userId accountId s)
    (observedAt : Int) (connectionLimit dayLimit : Nat) :
    Ensures (s.stageDueJiraWorklogs observedAt connectionLimit dayLimit) fun r =>
      StagingInvariant jira integrationId userId accountId r.1 ∧
        ∀ day, r.1.trackedOn accountId day = s.trackedOn accountId day := by
  unfold WorklogStore.stageDueJiraWorklogs
  refine ensures_raiseIf.bind fun _ _ => stageConnections_ensures h fun c hc => ?_
  have hmem := (List.mem_filter.mp (Library.mem_orderBy.mp (List.mem_of_mem_take hc))).1
  exact h.account c hmem

/-! ## Runs -/

/-- A step leaves the connection its account and its authorization periods. -/
def WorklogOp.keepsConnection (integrationId userId : Nat) (accountId : String) (s : WorklogStore) :
    WorklogOp → Bool
  | .environment _ _ connections periods =>
    (connections.all fun c => !c.isOf integrationId userId || c.accountId == accountId) &&
      periods.filter (fun p => p.isOf integrationId userId && p.accountId == accountId) ==
        s.periodsOf integrationId userId accountId
  | _ => true

/-- What a step does for the connection: the invariant stays, and the day of a sum that changes is dirty. -/
theorem worklogStep_ensures {op : WorklogOp} (h : StagingInvariant jira integrationId userId accountId s)
    (hkeeps : op.keepsConnection integrationId userId accountId s = true) :
    StagingInvariant jira integrationId userId accountId (worklogStep jira s op) ∧
      ∀ day, OfConnection jira integrationId userId day →
        (worklogStep jira s op).trackedOn accountId day ≠ s.trackedOn accountId day →
        (worklogStep jira s op).IsDirty day := by
  have hcommit : ∀ {result : Except Error WorklogStore} {P : WorklogStore → Prop}, P s →
      Ensures result P → P (s.commit result) := by
    rintro (error | store) P hs hresult
    · exact hs
    · exact hresult store rfl
  cases op with
  | transaction changes now =>
    have hchange : SourcesChange jira s (worklogStep jira s (.transaction changes now)) :=
      hcommit (.refl s) (transaction_ensures changes)
    refine ⟨h.of_change hchange, fun day hon hne => ?_⟩
    exact hchange.marks h.sessions accountId day (hon.1 ▸ hon.2.2) hne
  | stageDueJiraWorklogs observedAt connectionLimit dayLimit =>
    have hstage : StagingInvariant jira integrationId userId accountId
        (worklogStep jira s (.stageDueJiraWorklogs observedAt connectionLimit dayLimit)) ∧
        ∀ day, (worklogStep jira s
          (.stageDueJiraWorklogs observedAt connectionLimit dayLimit)).trackedOn accountId day =
          s.trackedOn accountId day :=
      hcommit (P := fun s' => StagingInvariant jira integrationId userId accountId s' ∧
        ∀ day, s'.trackedOn accountId day = s.trackedOn accountId day) ⟨h, fun _ => rfl⟩
        (Library.ensures_map.mpr (stageDueJiraWorklogs_ensures h observedAt connectionLimit dayLimit))
    exact ⟨hstage.1, fun day _ hne => absurd (hstage.2 day) hne⟩
  | deliver exportId delivery nextAttemptAt lastErrorCode =>
    refine ⟨⟨h.sessions, h.account, ?_, ?_⟩, fun _ _ hne => absurd rfl hne⟩
    · intro e he hi hu
      rcases mem_updateWhere_cases he with ⟨hold, _⟩ | ⟨old, hold, _, rfl⟩
      · exact h.owned e hold hi hu
      · exact h.owned old hold hi hu
    · have hdesired : (worklogStep jira s
          (.deliver exportId delivery nextAttemptAt lastErrorCode)).desiredOn = s.desiredOn := by
        funext day
        exact desiredOn_kept (fun _ => rfl) fun _ => rfl
      rw [hdesired]
      exact h.fresh
  | environment users integrations connections periods =>
    unfold WorklogOp.keepsConnection at hkeeps
    rw [Bool.and_eq_true, List.all_eq_true, beq_iff_eq] at hkeeps
    obtain ⟨haccount, hperiods⟩ := hkeeps
    have htracked : ∀ day, OfConnection jira integrationId userId day →
        (worklogStep jira s (.environment users integrations connections periods)).trackedOn
          accountId day = s.trackedOn accountId day := by
      intro day hon
      unfold WorklogStore.trackedOn WorklogStore.spanSeconds
      have hsame : (worklogStep jira s
          (.environment users integrations connections periods)).periodsOf day.integrationId day.userId
            accountId = s.periodsOf day.integrationId day.userId accountId := by
        rw [hon.1, hon.2.1]
        exact hperiods
      rw [hsame]
      rfl
    refine ⟨⟨h.sessions, fun c hc hof => ?_, h.owned, ?_⟩, fun day hon hne =>
      absurd (htracked day hon) hne⟩
    · have hall := haccount c hc
      simpa [hof] using hall
    · intro day hon hclean
      dsimp only
      rw [htracked day hon]
      exact h.fresh day hon hclean

end

/-- **Staging is exact for a connection**: whenever a day is not dirty, its export has the tracked seconds,
as far as an export can take them; and a step that changes the tracked seconds leaves the day dirty. -/
def StagedExactly (jira : Nat → Option Nat) (integrationId userId : Nat) (accountId : String)
    (s : WorklogStore) : Prop :=
  (∀ day, OfConnection jira integrationId userId day → ¬ s.IsDirty day →
    s.desiredOn day = min (s.trackedOn accountId day) maxDesiredSeconds) ∧
  ∀ op : WorklogOp, op.keepsConnection integrationId userId accountId s = true →
    ∀ day, OfConnection jira integrationId userId day →
      (worklogStep jira s op).trackedOn accountId day ≠ s.trackedOn accountId day →
      (worklogStep jira s op).IsDirty day

/-- The tables before any time is tracked. -/
def WorklogStore.start (users : List User) (integrations : List Integration)
    (connections : List WorklogConnection) (periods : List AuthorizationPeriod) : WorklogStore :=
  { users, integrations, connections, periods }

/-- Every run keeps the invariant. -/
theorem stagingInvariant_run (jira : Nat → Option Nat) (integrationId userId : Nat) (accountId : String)
    (users : List User) (integrations : List Integration) {connections : List WorklogConnection}
    (periods : List AuthorizationPeriod)
    (haccount : ∀ c ∈ connections, c.isOf integrationId userId → c.accountId = accountId)
    {ops : List WorklogOp}
    (hops : Guarded (worklogStep jira)
      (fun s op => op.keepsConnection integrationId userId accountId s = true)
      (.start users integrations connections periods) ops) :
    StagingInvariant jira integrationId userId accountId
      (run (worklogStep jira) (.start users integrations connections periods) ops) := by
  have hstart : StagingInvariant jira integrationId userId accountId
      (.start users integrations connections periods) := by
    refine ⟨fun _ h => (nomatch h), haccount, fun _ h => (nomatch h), fun day _ _ => ?_⟩
    rfl
  exact guarded_invariant (StagingInvariant jira integrationId userId accountId)
    (fun _ _ h hkeeps => (worklogStep_ensures h hkeeps).1) hstart hops

/-- **Jira worklogs are staged exactly** in every run, for a connection whose account and authorization
periods stay as they are. -/
theorem stagedExactly_run (jira : Nat → Option Nat) (integrationId userId : Nat) (accountId : String)
    (users : List User) (integrations : List Integration) {connections : List WorklogConnection}
    (periods : List AuthorizationPeriod)
    (haccount : ∀ c ∈ connections, c.isOf integrationId userId → c.accountId = accountId)
    {ops : List WorklogOp}
    (hops : Guarded (worklogStep jira)
      (fun s op => op.keepsConnection integrationId userId accountId s = true)
      (.start users integrations connections periods) ops) :
    StagedExactly jira integrationId userId accountId
      (run (worklogStep jira) (.start users integrations connections periods) ops) := by
  have hinv := stagingInvariant_run jira integrationId userId accountId users integrations periods haccount
    hops
  exact ⟨fun day hon hclean => hinv.fresh day hon hclean,
    fun op hkeeps => (worklogStep_ensures hinv hkeeps).2⟩

/-! ## A member with whole days -/

/-- One Jira task. -/
def oneJiraTask (taskId : Nat) : Option Nat := if taskId = 5 then some 1 else none

def hourlyConnection : WorklogConnection :=
  { integrationId := 1, userId := 2, accountId := "5b10ac8d82e05b22cc7d4ef5", displayName := "Ann",
    kind := .member, enabled := true, timeSyncMode := .hourly, nextWorklogSyncAt := 0 }

/-- A member with an open authorization, before any time is tracked. -/
def connectedMember : WorklogStore :=
  .start [{ id := 2, role := .member, enabled := true, dailyLimitMinutes := 0, weeklyLimitMinutes := 0 }]
    [{ id := 1, resourceKey := "site", enabled := true, createdByUserId := none }] [hourlyConnection]
    [{ id := 9, integrationId := 1, userId := 2, accountId := "5b10ac8d82e05b22cc7d4ef5", startedAt := 0,
       endedAt := none }]

/-- An approved entry of a whole day. -/
def wholeDay (id : Nat) : ManualTimeEntry :=
  { id, userId := 2, projectId := 3, taskId := some 5, startedAt := 0, endedAt := days 1, note := "",
    status := .approved }

/-- An entry is approved and staged, and the next day it is rejected. -/
theorem stagedExactly_run_rejected :
    (run (worklogStep oneJiraTask) connectedMember
      [.transaction [.insertManual (wholeDay 0)] 0, .stageDueJiraWorklogs (days 2) 100 1000]).desiredOn
      ⟨1, 2, 5, 0⟩ = 86400 ∧
    StagedExactly oneJiraTask 1 2 hourlyConnection.accountId
      (run (worklogStep oneJiraTask) connectedMember
        [.transaction [.insertManual (wholeDay 0)] 0, .stageDueJiraWorklogs (days 2) 100 1000,
          .transaction [.updateManual { wholeDay 0 with status := .rejected }] (days 3),
          .stageDueJiraWorklogs (days 3) 100 1000]) :=
  ⟨by decide +kernel, stagedExactly_run oneJiraTask 1 2 hourlyConnection.accountId _ _ _ (by decide)
    ⟨rfl, rfl, rfl, rfl, trivial⟩⟩

/-- The member after `n` entries of the first day. -/
def afterEntries (n : Nat) : WorklogStore :=
  { connectedMember with
    manualTimeEntries := (List.range n).map wholeDay
    dirtyDays := if n = 0 then [] else
      [{ integrationId := 1, userId := 2, taskId := 5, workDate := 0, changedAt := 0 }]
    nextId := n }

theorem afterEntries_insert (n : Nat) :
    (SourceChange.insertManual (wholeDay 0)).apply oneJiraTask 0 (afterEntries n) =
      .ok (afterEntries (n + 1)) := by
  have hstore : (afterEntries n).enqueueManual oneJiraTask 0 (wholeDay 0) =
      { afterEntries n with
        dirtyDays := [{ integrationId := 1, userId := 2, taskId := 5, workDate := 0, changedAt := 0 }] } := by
    cases n with
    | zero => rfl
    | succ n => rfl
  unfold SourceChange.apply
  dsimp only
  rw [if_neg (by decide), hstore]
  unfold afterEntries
  rw [List.range_succ, List.map_append]
  rfl

theorem afterEntries_transaction (n k : Nat) :
    (List.replicate n (SourceChange.insertManual (wholeDay 0))).foldlM
      (SourceChange.apply oneJiraTask 0) (afterEntries k) = .ok (afterEntries (k + n)) := by
  induction n generalizing k with
  | zero => rfl
  | succ n ih =>
    rw [List.replicate_succ, List.foldlM_cons, afterEntries_insert]
    exact (ih (k + 1)).trans (by rw [Nat.add_right_comm]; rfl)

theorem afterEntries_trackedOn (n : Nat) :
    (afterEntries n).trackedOn hourlyConnection.accountId ⟨1, 2, 5, 0⟩ = n * 86400 := by
  rw [trackedOn_eq_shares]
  have hshare : (afterEntries n).manualShare hourlyConnection.accountId ⟨1, 2, 5, 0⟩ ∘ wholeDay =
      fun _ => 86400 := by
    funext k
    rfl
  show 0 + (((List.range n).map wholeDay).map _).sum = _
  rw [List.map_map, hshare, List.map_const', List.length_range, List.sum_replicate_int, Int.zero_add]

theorem afterEntries_staged {n : Nat} (hpos : 0 < n) (hsmall : n ≤ 30000) :
    (worklogStep oneJiraTask (afterEntries n) (.stageDueJiraWorklogs (days 2) 100 1000)).dirtyDays = [] ∧
      (worklogStep oneJiraTask (afterEntries n) (.stageDueJiraWorklogs (days 2) 100 1000)).trackedOn
        hourlyConnection.accountId ⟨1, 2, 5, 0⟩ = n * 86400 := by
  have hselected : (afterEntries n).selectedDays (days 2) 1000 hourlyConnection =
      [{ integrationId := 1, userId := 2, taskId := 5, workDate := 0, changedAt := 0 }] := by
    unfold WorklogStore.selectedDays afterEntries
    rw [if_neg (Nat.ne_of_gt hpos)]
    rfl
  have hdue : (afterEntries n).dueConnections (days 2) 100 = [hourlyConnection] := by
    unfold WorklogStore.dueConnections afterEntries
    rfl
  have htotal : ¬ 9223372036854775807 < (afterEntries n).trackedOn hourlyConnection.accountId ⟨1, 2, 5, 0⟩ := by
    rw [afterEntries_trackedOn]
    omega
  have hpositive : ¬ min ((afterEntries n).trackedOn hourlyConnection.accountId ⟨1, 2, 5, 0⟩) 2147483647 ≤ 0 := by
    rw [afterEntries_trackedOn]
    omega
  obtain ⟨r, hday, hwrites⟩ : ∃ r, WorklogStore.stageDay (days 2) hourlyConnection.accountId
      (afterEntries n, 0) ⟨1, 2, 5, 0⟩ = .ok r ∧ WritesExports (afterEntries n) r.1 := by
    unfold WorklogStore.stageDay
    dsimp only
    rw [sum_worklogEntries, if_neg htotal]
    show ∃ r, (if min _ _ ≤ 0 then _ else _) = Except.ok r ∧ _
    rw [if_neg hpositive]
    exact ⟨_, rfl, _, _, rfl⟩
  obtain ⟨exports, nextId, hr⟩ := hwrites
  have hpass : ∃ r', (afterEntries n).stageDueJiraWorklogs (days 2) 100 1000 = .ok r' ∧
      r'.1.dirtyDays = [] ∧
      r'.1.trackedOn hourlyConnection.accountId ⟨1, 2, 5, 0⟩ = n * 86400 := by
    unfold WorklogStore.stageDueJiraWorklogs
    rw [hdue]
    show ∃ r', ([hourlyConnection].foldlM (WorklogStore.stageConnection (days 2) 1000)
      (afterEntries n, 0)) = Except.ok r' ∧ _
    rw [List.foldlM_cons]
    unfold WorklogStore.stageConnection
    dsimp only
    rw [hselected, List.map_singleton, List.foldlM_cons]
    show ∃ r', (((WorklogStore.stageDay (days 2) hourlyConnection.accountId (afterEntries n, 0)
      ⟨1, 2, 5, 0⟩ >>= _) >>= _) >>= _) = Except.ok r' ∧ _
    rw [hday]
    refine ⟨_, rfl, ?_, ?_⟩
    · show r.1.dirtyDays.filter _ = []
      rw [hr]
      show List.filter _ (if n = 0 then [] else _) = []
      rw [if_neg (Nat.ne_of_gt hpos)]
      rfl
    · show r.1.trackedOn hourlyConnection.accountId ⟨1, 2, 5, 0⟩ = n * 86400
      rw [hr]
      exact afterEntries_trackedOn n
  obtain ⟨r', hstaged, hnone⟩ := hpass
  unfold worklogStep
  dsimp only
  rw [hstaged]
  exact hnone

/-- The member after one transaction with the entries. -/
theorem afterEntries_step (n : Nat) :
    worklogStep oneJiraTask connectedMember
      (.transaction (List.replicate n (.insertManual (wholeDay 0))) 0) = afterEntries n := by
  unfold worklogStep
  dsimp only
  have hrun := afterEntries_transaction n 0
  rw [Nat.zero_add] at hrun
  have hstart : afterEntries 0 = connectedMember := rfl
  rw [← hstart, hrun]
  rfl

/-- **More seconds than an export takes**: 24856 approved entries of the same whole day. -/
theorem stagedExactly_capped :
    ¬ ∀ (jira : Nat → Option Nat) (integrationId userId : Nat) (accountId : String) (users : List User)
      (integrations : List Integration) (connections : List WorklogConnection)
      (periods : List AuthorizationPeriod) (ops : List WorklogOp),
      (∀ c ∈ connections, c.isOf integrationId userId → c.accountId = accountId) →
      Guarded (worklogStep jira) (fun s op => op.keepsConnection integrationId userId accountId s = true)
        (.start users integrations connections periods) ops →
      ∀ day, OfConnection jira integrationId userId day →
        ¬ (run (worklogStep jira) (.start users integrations connections periods) ops).IsDirty day →
        (run (worklogStep jira) (.start users integrations connections periods) ops).desiredOn day =
          (run (worklogStep jira) (.start users integrations connections periods) ops).trackedOn
            accountId day := by
  intro h
  obtain ⟨n, hn⟩ : ∃ n, n = 24856 := ⟨_, rfl⟩
  have haccount : ∀ c ∈ connectedMember.connections, c.isOf 1 2 → c.accountId = hourlyConnection.accountId := by
    decide
  have hguarded : Guarded (worklogStep oneJiraTask)
      (fun s op => op.keepsConnection 1 2 hourlyConnection.accountId s = true) connectedMember
      [.transaction (List.replicate n (.insertManual (wholeDay 0))) 0,
        .stageDueJiraWorklogs (days 2) 100 1000] := ⟨rfl, rfl, trivial⟩
  have hrun : run (worklogStep oneJiraTask) connectedMember
      [.transaction (List.replicate n (.insertManual (wholeDay 0))) 0,
        .stageDueJiraWorklogs (days 2) 100 1000] =
      worklogStep oneJiraTask (afterEntries n) (.stageDueJiraWorklogs (days 2) 100 1000) := by
    rw [Library.run_cons, Library.run_cons, Library.run_nil, afterEntries_step]
  obtain ⟨hnone, htracked⟩ := afterEntries_staged (n := n) (by omega) (by omega)
  have hclean : ¬ WorklogStore.IsDirty (run (worklogStep oneJiraTask) connectedMember
      [.transaction (List.replicate n (.insertManual (wholeDay 0))) 0,
        .stageDueJiraWorklogs (days 2) 100 1000]) ⟨1, 2, 5, 0⟩ := by
    rw [hrun]
    rintro ⟨d, hd, _⟩
    rw [hnone] at hd
    cases hd
  have hclaimed := h oneJiraTask 1 2 hourlyConnection.accountId connectedMember.users
    connectedMember.integrations connectedMember.connections connectedMember.periods _ haccount hguarded
    ⟨1, 2, 5, 0⟩ ⟨rfl, rfl, rfl⟩ hclean
  have hstaged := (stagingInvariant_run oneJiraTask 1 2 hourlyConnection.accountId connectedMember.users
    connectedMember.integrations connectedMember.periods haccount hguarded).fresh ⟨1, 2, 5, 0⟩
    ⟨rfl, rfl, rfl⟩ hclean
  have htotal := hrun ▸ htracked
  have hcapped : min ((n : Int) * 86400) maxDesiredSeconds = n * 86400 := by
    rw [← htotal]
    exact hstaged.symm.trans hclaimed
  unfold maxDesiredSeconds at hcapped
  omega
end Dayfinch
