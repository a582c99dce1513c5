/-
# Dayfinch.Jobs.RateLimits -- the request buckets that all replicas of the API share

A bucket is one row: the window it counts, and the calls it counted there. `consume_request_limit` is one
upsert, so the calls of a bucket are applied one after another, but not in the order of their statement
timestamps: a call may have waited for the lock of the row while the window changed. The upsert sets the window
of the row to the one of the call, whichever of the two is the later, and begins to count again.

So a window is counted in one piece only as long as the row stays in it between the calls that fall in it:
`StaysInWindow` is that condition on a step. `requestLimit_enforced_iff` says that at most `limit` calls of a
window are accepted, and no more with a purge than without it, if and only if the window is counted in one
piece or has no more calls than that.

The history of the calls is no part of the program; it is what the claims are about. The count of the row is a
number of any size, `INTEGER` in the table.
-/
import Dayfinch.Clock
import Dayfinch.Library.Run
import Mathlib.Data.List.Count

namespace Dayfinch

open Library (run run_append Guarded guarded_invariant run_invariant exists_of_not_guarded)

/-! ## Buckets -/

/-- A row of `request_rate_limits`. -/
structure RequestRateLimit where
  windowId : Int
  requestCount : Nat
  updatedAt : Int
  deriving DecidableEq, Repr

/-- The rows by their primary key, `bucket_key`. -/
abbrev RequestRateLimits := String → Option RequestRateLimit

/-- The times of the upsert: `statement_timestamp()`, and the `CURRENT_TIMESTAMP` of its transaction. -/
structure LimitCall where
  statementAt : Int
  transactionAt : Int
  deriving DecidableEq, Repr

/-- `floor(extract(epoch FROM ...) / window_seconds)::bigint`. -/
def windowId (windowSeconds : Nat) (t : Int) : Int := t / seconds windowSeconds

/-- The row that the upsert leaves. -/
def consumed (windowSeconds : Nat) (call : LimitCall) (row : Option RequestRateLimit) : RequestRateLimit where
  windowId := windowId windowSeconds call.statementAt
  requestCount := match row with
    | some r => if r.windowId = windowId windowSeconds call.statementAt then r.requestCount + 1 else 1
    | none => 1
  updatedAt := call.transactionAt

/-- `greatest(1,ceil(...))` of the seconds to the end of the window of the row. -/
def retryAfter (windowSeconds : Nat) (call : LimitCall) (row : RequestRateLimit) : Int :=
  max 1 (-((call.statementAt - (row.windowId + 1) * seconds windowSeconds) / seconds 1))

/-- `consume_request_limit`: the table, whether the call is accepted, and when to try again. -/
def consumeRequestLimit (rows : RequestRateLimits) (bucketKey : String) (limit windowSeconds : Nat)
    (call : LimitCall) : RequestRateLimits × Bool × Int :=
  let row := consumed windowSeconds call (rows bucketKey)
  (Function.update rows bucketKey (some row), decide (row.requestCount ≤ limit),
    retryAfter windowSeconds call row)

/-- `purge_request_limits_before`. -/
def purgeRequestLimitsBefore (cutoff : Int) (rows : RequestRateLimits) : RequestRateLimits :=
  fun bucketKey => (rows bucketKey).filter fun r => !decide (r.updatedAt < cutoff)

/-! ## Histories -/

/-- What reaches the table. -/
inductive RateLimitOp
  | consume (bucketKey : String) (call : LimitCall)
  | purge (cutoff : Int)
  deriving DecidableEq, Repr

def RateLimitOp.isConsume : RateLimitOp → Bool
  | consume _ _ => true
  | purge _ => false

/-- A call as it was answered. -/
structure AnsweredCall where
  bucketKey : String
  windowId : Int
  accepted : Bool
  deriving DecidableEq, Repr

/-- The table, and the calls answered so far. -/
structure RateLimits where
  rows : RequestRateLimits
  history : List AnsweredCall

/-- No bucket has a row. -/
def RateLimits.fresh : RateLimits where
  rows := fun _ => none
  history := []

namespace RateLimits

variable (limit windowSeconds : Nat)

def step (s : RateLimits) : RateLimitOp → RateLimits
  | .consume bucketKey call =>
      let answer := consumeRequestLimit s.rows bucketKey limit windowSeconds call
      { rows := answer.1
        history := ⟨bucketKey, windowId windowSeconds call.statementAt, answer.2.1⟩ :: s.history }
  | .purge cutoff => { s with rows := purgeRequestLimitsBefore cutoff s.rows }

/-- The calls on the bucket whose statement timestamp falls in the window. -/
def callsIn (s : RateLimits) (bucketKey : String) (window : Int) : Nat :=
  s.history.countP fun c => c.bucketKey == bucketKey && c.windowId == window

/-- Those of them that were accepted. -/
def acceptedIn (s : RateLimits) (bucketKey : String) (window : Int) : Nat :=
  s.history.countP fun c => c.bucketKey == bucketKey && c.windowId == window && c.accepted

/-- The count of the bucket, while its row is in the window. -/
def countIn (s : RateLimits) (bucketKey : String) (window : Int) : Option Nat :=
  ((s.rows bucketKey).filter (·.windowId == window)).map (·.requestCount)

/-- A call of this bucket and this window finds the row still in the window, or is the first of them. -/
def StaysInWindow (bucketKey : String) (window : Int) (s : RateLimits) : RateLimitOp → Prop
  | .consume key call => key = bucketKey → windowId windowSeconds call.statementAt = window →
      (s.countIn bucketKey window).isSome ∨ s.callsIn bucketKey window = 0
  | .purge _ => True

instance (bucketKey : String) (window : Int) (s : RateLimits) (op : RateLimitOp) :
    Decidable (StaysInWindow windowSeconds bucketKey window s op) := by
  cases op <;> unfold StaysInWindow <;> infer_instance

/-! ## One step, for one bucket and one window -/

/-- What a step does to the calls, the accepted ones and the count of a bucket in a window. -/
inductive Moves (limit : Nat) : Nat → Nat → Option Nat → Nat → Nat → Option Nat → Prop
  /-- A call of this bucket and this window. -/
  | counts (calls accepted : Nat) (count : Option Nat) : Moves limit calls accepted count (calls + 1)
      (accepted + if count.getD 0 + 1 ≤ limit then 1 else 0) (some (count.getD 0 + 1))
  /-- A call of this bucket in another window, or a purge of the row. -/
  | leaves (calls accepted : Nat) (count : Option Nat) : Moves limit calls accepted count calls accepted none
  /-- A call of another bucket, or a purge of other rows. -/
  | keeps (calls accepted : Nat) (count : Option Nat) : Moves limit calls accepted count calls accepted count

theorem step_moves (s : RateLimits) (op : RateLimitOp) (bucketKey : String) (window : Int) :
    Moves limit (s.callsIn bucketKey window) (s.acceptedIn bucketKey window) (s.countIn bucketKey window)
      ((s.step limit windowSeconds op).callsIn bucketKey window)
      ((s.step limit windowSeconds op).acceptedIn bucketKey window)
      ((s.step limit windowSeconds op).countIn bucketKey window) := by
  cases op with
  | consume key call =>
    by_cases hkey : key = bucketKey
    · subst hkey
      by_cases hwindow : windowId windowSeconds call.statementAt = window
      · subst hwindow
        have hcount : (consumed windowSeconds call (s.rows key)).requestCount =
            (s.countIn key (windowId windowSeconds call.statementAt)).getD 0 + 1 := by
          cases hrow : s.rows key with
          | none => simp [consumed, countIn, hrow]
          | some r =>
            by_cases hr : r.windowId = windowId windowSeconds call.statementAt <;>
              simp [consumed, countIn, hrow, hr, Option.filter]
        convert Moves.counts _ _ (s.countIn key (windowId windowSeconds call.statementAt)) using 1
        · simp [step, callsIn]
        · rw [← hcount]
          simp [step, acceptedIn, consumeRequestLimit, List.countP_cons]
        · rw [← hcount]
          simp [step, countIn, consumeRequestLimit, consumed]
      · convert Moves.leaves _ _ (s.countIn key window) using 1
        · simp [step, callsIn, hwindow]
        · simp [step, acceptedIn, hwindow]
        · simp [step, countIn, consumeRequestLimit, consumed, hwindow, Option.filter]
    · convert Moves.keeps _ _ _ using 1
      · simp [step, callsIn, hkey]
      · simp [step, acceptedIn, hkey]
      · simp [step, countIn, consumeRequestLimit, Function.update_of_ne (Ne.symm hkey)]
  | purge cutoff =>
    cases hrow : s.rows bucketKey with
    | none =>
      convert Moves.keeps _ _ _ using 1
      · rfl
      · rfl
      · simp [step, countIn, purgeRequestLimitsBefore, hrow]
    | some r =>
      by_cases hold : r.updatedAt < cutoff
      · convert Moves.leaves _ _ (s.countIn bucketKey window) using 1
        · rfl
        · rfl
        · simp [step, countIn, purgeRequestLimitsBefore, hrow, Option.filter, hold]
      · convert Moves.keeps _ _ _ using 1
        · rfl
        · rfl
        · simp [step, countIn, purgeRequestLimitsBefore, hrow, Option.filter, hold]

/-! ## Windows counted in one piece, and in several -/

/-- All calls so far were counted in one piece: the count, while there is one, is theirs. -/
structure Whole (limit calls accepted : Nat) (count : Option Nat) : Prop where
  accepted_eq : accepted = min calls limit
  count_eq : ∀ n, count = some n → n = calls

/-- The calls were counted in several pieces: either none was refused, or too many were accepted. -/
structure Broken (limit calls accepted : Nat) (count : Option Nat) : Prop where
  accepted_eq : accepted = calls ∨ limit < accepted
  calls_pos : 0 < calls
  count_lt : ∀ n, count = some n → n < calls

/-- In whatever pieces the calls are counted, a call is refused only after `limit` others. -/
structure Counted (limit calls accepted : Nat) (count : Option Nat) : Prop where
  le_accepted : min calls limit ≤ accepted
  accepted_le : accepted ≤ calls
  none_accepted : limit = 0 → accepted = 0
  count_le : ∀ n, count = some n → n ≤ calls

variable {limit windowSeconds}
variable {calls accepted calls' accepted' : Nat} {count count' : Option Nat}

theorem Counted.moves (h : Counted limit calls accepted count)
    (hmove : Moves limit calls accepted count calls' accepted' count') :
    Counted limit calls' accepted' count' := by
  obtain ⟨hle, hge, hzero, hcount⟩ := h
  cases hmove with
  | counts =>
    have hn : count.getD 0 ≤ calls := by
      cases count with
      | none => simp
      | some n => simpa using hcount n rfl
    refine ⟨?_, ?_, ?_, ?_⟩
    · split <;> omega
    · split <;> omega
    · intro hlimit
      rw [if_neg (by omega), hzero hlimit]
    · intro n heq
      simp only [Option.some.injEq] at heq
      omega
  | leaves => exact ⟨hle, hge, hzero, nofun⟩
  | keeps => exact ⟨hle, hge, hzero, hcount⟩

theorem Whole.moves (h : Whole limit calls accepted count) (hstays : calls' ≠ calls → count.isSome ∨ calls = 0)
    (hmove : Moves limit calls accepted count calls' accepted' count') :
    Whole limit calls' accepted' count' := by
  obtain ⟨haccepted, hcount⟩ := h
  cases hmove with
  | counts =>
    have hn : count.getD 0 = calls := by
      cases count with
      | none =>
        have hzero : calls = 0 := by simpa using hstays (by omega)
        simp [hzero]
      | some n => simpa using hcount n rfl
    refine ⟨?_, ?_⟩
    · rw [hn, haccepted]
      split <;> omega
    · intro n heq
      simp only [Option.some.injEq] at heq
      omega
  | leaves => exact ⟨haccepted, nofun⟩
  | keeps => exact ⟨haccepted, hcount⟩

/-- The step that begins to count a window again. -/
theorem Whole.broken (h : Whole limit calls accepted count) (hlimit : 0 < limit)
    (hcalls : calls' ≠ calls) (hbegun : ¬ (count.isSome ∨ calls = 0))
    (hmove : Moves limit calls accepted count calls' accepted' count') :
    Broken limit calls' accepted' count' := by
  obtain ⟨haccepted, -⟩ := h
  cases hmove with
  | counts =>
    have hnone : count = none := by
      cases count with
      | none => rfl
      | some n => simp at hbegun
    subst hnone
    have hpos : calls ≠ 0 := fun hzero => hbegun (.inr hzero)
    refine ⟨?_, by omega, ?_⟩
    · rw [haccepted, Option.getD_none, if_pos (by omega)]
      omega
    · intro n heq
      simp only [Option.getD_none, Option.some.injEq] at heq
      omega
  | leaves => exact absurd rfl hcalls
  | keeps => exact absurd rfl hcalls

theorem Broken.moves (h : Broken limit calls accepted count)
    (hmove : Moves limit calls accepted count calls' accepted' count') :
    Broken limit calls' accepted' count' := by
  obtain ⟨haccepted, hpos, hcount⟩ := h
  cases hmove with
  | counts =>
    have hn : count.getD 0 < calls := by
      cases count with
      | none => simpa using hpos
      | some n => simpa using hcount n rfl
    refine ⟨?_, by omega, ?_⟩
    -- a call that is refused comes after `limit` calls of its own piece, and after one of another piece
    · split <;> omega
    · intro n heq
      simp only [Option.some.injEq] at heq
      omega
  | leaves => exact ⟨haccepted, hpos, nofun⟩
  | keeps => exact ⟨haccepted, hpos, hcount⟩

/-! ## Runs -/

/-- The calls of a run on the bucket, in the window. -/
def callsOf (windowSeconds : Nat) (bucketKey : String) (window : Int) (ops : List RateLimitOp) : Nat :=
  ops.countP fun
    | .consume key call => key == bucketKey && windowId windowSeconds call.statementAt == window
    | .purge _ => false

theorem callsIn_run (ops : List RateLimitOp) (bucketKey : String) (window : Int) (s : RateLimits) :
    (run (step limit windowSeconds) s ops).callsIn bucketKey window =
      s.callsIn bucketKey window + callsOf windowSeconds bucketKey window ops := by
  induction ops generalizing s with
  | nil => simp [callsOf]
  | cons op ops ih =>
    rw [Library.run_cons, ih]
    cases op with
    | consume key call =>
      simp only [step, callsIn, callsOf, List.countP_cons]
      omega
    | purge cutoff => simp [step, callsIn, callsOf]

variable (limit windowSeconds) in
theorem counted_run (ops : List RateLimitOp) (bucketKey : String) (window : Int) :
    let s := run (step limit windowSeconds) fresh ops
    Counted limit (s.callsIn bucketKey window) (s.acceptedIn bucketKey window)
      (s.countIn bucketKey window) := by
  intro s
  exact run_invariant (fun s : RateLimits => Counted limit (s.callsIn bucketKey window)
      (s.acceptedIn bucketKey window) (s.countIn bucketKey window))
    (fun s op h => h.moves (step_moves limit windowSeconds s op bucketKey window))
    ⟨by simp [fresh, callsIn], by simp [fresh, callsIn, acceptedIn], by simp [fresh, acceptedIn],
      by simp [fresh, countIn]⟩ ops

variable (limit) in
/-- A step that adds to the calls is one the condition speaks of. -/
theorem staysInWindow_iff {bucketKey : String} {window : Int} {s : RateLimits} {op : RateLimitOp} :
    StaysInWindow windowSeconds bucketKey window s op ↔
      ((s.step limit windowSeconds op).callsIn bucketKey window ≠ s.callsIn bucketKey window →
        (s.countIn bucketKey window).isSome ∨ s.callsIn bucketKey window = 0) := by
  cases op with
  | consume key call =>
    by_cases hkey : key = bucketKey <;>
      by_cases hwindow : windowId windowSeconds call.statementAt = window <;>
        simp [StaysInWindow, step, callsIn, hkey, hwindow]
  | purge cutoff => simp [StaysInWindow, step, callsIn]

theorem whole_run {bucketKey : String} {window : Int} {ops : List RateLimitOp}
    (hstays : Guarded (step limit windowSeconds) (StaysInWindow windowSeconds bucketKey window) fresh ops) :
    let s := run (step limit windowSeconds) fresh ops
    Whole limit (s.callsIn bucketKey window) (s.acceptedIn bucketKey window)
      (s.countIn bucketKey window) := by
  intro s
  exact guarded_invariant (fun s : RateLimits => Whole limit (s.callsIn bucketKey window)
      (s.acceptedIn bucketKey window) (s.countIn bucketKey window))
    (fun s op h hop => h.moves ((staysInWindow_iff limit).mp hop) (step_moves limit windowSeconds s op bucketKey window))
    ⟨by simp [fresh, callsIn, acceptedIn], by simp [fresh, countIn]⟩ hstays

theorem broken_run {bucketKey : String} {window : Int} {ops : List RateLimitOp} (hlimit : 0 < limit)
    (hleaves : ¬ Guarded (step limit windowSeconds) (StaysInWindow windowSeconds bucketKey window) fresh ops) :
    let s := run (step limit windowSeconds) fresh ops
    Broken limit (s.callsIn bucketKey window) (s.acceptedIn bucketKey window)
      (s.countIn bucketKey window) := by
  intro s
  obtain ⟨before, op, after, rfl, hbefore, hop⟩ := exists_of_not_guarded hleaves
  have hwhole := whole_run hbefore
  rw [staysInWindow_iff limit] at hop
  push Not at hop
  have hbroken := hwhole.broken hlimit hop.1 (by simpa using hop.2)
    (step_moves limit windowSeconds _ op bucketKey window)
  have hrun : s = run (step limit windowSeconds)
      (step limit windowSeconds (run (step limit windowSeconds) fresh before) op) after := by
    simp only [s, run_append, Library.run_cons]
  rw [hrun]
  exact run_invariant (fun s : RateLimits => Broken limit (s.callsIn bucketKey window)
      (s.acceptedIn bucketKey window) (s.countIn bucketKey window))
    (fun s op h => h.moves (step_moves limit windowSeconds s op bucketKey window)) hbroken after

variable (limit windowSeconds) in
/-- At most `limit` calls of the window are accepted, and no more than without some of the purges. -/
def Enforced (bucketKey : String) (window : Int) (ops : List RateLimitOp) : Prop :=
  let accepted ops := (run (step limit windowSeconds) fresh ops).acceptedIn bucketKey window
  accepted ops ≤ limit ∧
    ∀ ops' : List RateLimitOp, ops'.Sublist ops → ops'.filter (·.isConsume) = ops.filter (·.isConsume) →
      accepted ops ≤ accepted ops'

theorem callsOf_eq_of_filter {bucketKey : String} {window : Int} {ops ops' : List RateLimitOp}
    (h : ops'.filter (·.isConsume) = ops.filter (·.isConsume)) :
    callsOf windowSeconds bucketKey window ops' = callsOf windowSeconds bucketKey window ops := by
  have hfilter : ∀ ops : List RateLimitOp, callsOf windowSeconds bucketKey window ops =
      callsOf windowSeconds bucketKey window (ops.filter (·.isConsume)) := by
    intro ops
    rw [callsOf, callsOf, List.countP_filter]
    refine List.countP_congr fun op _ => ?_
    cases op <;> simp [RateLimitOp.isConsume]
  rw [hfilter ops', hfilter ops, h]

/-- **When the limit is enforced.** A window is counted in one piece, or it has no more calls than the limit. -/
theorem requestLimit_enforced_iff (limit windowSeconds : Nat) (bucketKey : String) (window : Int)
    (ops : List RateLimitOp) :
    Enforced limit windowSeconds bucketKey window ops ↔
      limit = 0 ∨ callsOf windowSeconds bucketKey window ops ≤ limit ∨
        Guarded (step limit windowSeconds) (StaysInWindow windowSeconds bucketKey window) fresh ops := by
  have hcounted := counted_run limit windowSeconds ops bucketKey window
  have hcalls : ∀ ops : List RateLimitOp, (run (step limit windowSeconds) fresh ops).callsIn bucketKey window =
      callsOf windowSeconds bucketKey window ops := by
    intro ops
    rw [callsIn_run]
    simp [fresh, callsIn]
  simp only [Enforced]
  constructor
  · rintro ⟨hle, -⟩
    by_contra hnot
    push Not at hnot
    obtain ⟨hpos, hmany, hleaves⟩ := hnot
    have hbroken := broken_run (by omega) hleaves
    have hsame := hbroken.accepted_eq
    rw [hcalls] at hsame
    omega
  · intro hcondition
    have hmin : (run (step limit windowSeconds) fresh ops).acceptedIn bucketKey window ≤
        min (callsOf windowSeconds bucketKey window ops) limit := by
      rcases hcondition with hzero | hfew | hstays
      · have := hcounted.none_accepted hzero
        omega
      · have := hcounted.accepted_le
        rw [hcalls] at this
        omega
      · rw [(whole_run hstays).accepted_eq, hcalls]
    refine ⟨by omega, fun ops' _ hsame => ?_⟩
    have hle := (counted_run limit windowSeconds ops' bucketKey window).le_accepted
    rw [hcalls, callsOf_eq_of_filter hsame] at hle
    omega

/-- A call of the window before waited for the lock of the row: the two others of their window, with a limit
of one, are both accepted. -/
theorem requestLimit_late_call : ¬ ∀ (limit windowSeconds : Nat) (bucketKey : String) (window : Int)
    (ops : List RateLimitOp), Enforced limit windowSeconds bucketKey window ops := by
  intro h
  have hlate := (h 1 60 "web" 1 [.consume "web" ⟨60000000, 60000000⟩, .consume "web" ⟨59999000, 59999000⟩,
    .consume "web" ⟨61000000, 61000000⟩]).1
  exact absurd hlate (by decide)

end RateLimits

end Dayfinch
