/-
# Dayfinch.Agent.Automatic -- the windows of an automatic tracking policy

The agent holds the policy that the server sent last, as the JSON object it came in. A field that may be
absent or of another JSON type is an option here, and a time that does not parse is `none`; the rule type
and the consent status are what the database checks they are. `active_window` finds the window of the
policy that a moment lies in. Its `key` is what the agent remembers the window by.
-/
import Dayfinch.Clock
import Dayfinch.Library.Text

namespace Dayfinch

open Library.Calendar (weekday monthOf monthStart)
open Library.Text (decimalDigit)

/-! ## Policies -/

inductive RuleType
  | fixedSchedule | shifts
  deriving DecidableEq, Repr

inductive ConsentStatus
  | pending | accepted | declined
  deriving DecidableEq, Repr

/-- An interval of a fixed schedule. -/
structure Interval where
  start : Option String
  stop : Option String
  deriving DecidableEq, Repr

/-- An entry of `shift_windows`; its times are parsed. -/
structure ShiftWindow where
  startsAt : Option Datetime
  endsAt : Option Datetime
  projectId : Option String
  deriving DecidableEq, Repr

/-- The policy in `automatic_tracking`. -/
structure AutomaticPolicy where
  id : String
  name : String
  ruleType : RuleType
  projectId : String
  waitForActivity : Bool
  schedule : Option (List (String × List Interval))
  consentStatus : ConsentStatus
  shiftWindows : Option (List ShiftWindow)
  deriving DecidableEq, Repr

/-- `ActiveWindow`. -/
structure ActiveWindow where
  key : String
  projectId : String
  endsAt : Datetime
  deriving DecidableEq, Repr

/-! ## Texts -/

/-- `f"{n:0{width}d}"`. -/
def zeroPadded (width n : Nat) : String :=
  let digits := Nat.toDigits 10 n
  String.ofList (List.replicate (width - digits.length) '0' ++ digits)

/-- `str(date)`. -/
def dateText (day : Int) : String :=
  let month := monthOf day
  zeroPadded 4 (month / 12).toNat ++ "-" ++ zeroPadded 2 (month % 12 + 1).toNat ++ "-" ++
    zeroPadded 2 (day - monthStart month + 1).toNat

/-- `str(time)` of a time without microseconds, in seconds since midnight. -/
def timeText (second : Nat) : String :=
  zeroPadded 2 (second / 3600) ++ ":" ++ zeroPadded 2 (second / 60 % 60) ++ ":" ++
    zeroPadded 2 (second % 60)

/-- `isoformat()` of an instant in UTC. -/
def isoformat (t : Int) : String :=
  let microsecond := (t % seconds 1).toNat
  dateText (dateOf t) ++ "T" ++ timeText ((t - startOfDay (dateOf t)) / seconds 1).toNat ++
    (if microsecond = 0 then "" else "." ++ zeroPadded 6 microsecond) ++ "+00:00"

/-- `%H`: one digit, or two that make an hour. -/
def strptimeHour : List Char → Option Nat
  | [h] => decimalDigit h
  | ['2', h] => if '0' ≤ h ∧ h ≤ '3' then (decimalDigit h).map (20 + ·) else none
  | [h, h'] => if h = '0' ∨ h = '1' then (decimalDigit h').map ((h.toNat - '0'.toNat) * 10 + ·) else none
  | _ => none

/-- `%M`: one digit, or two that make a minute. -/
def strptimeMinute : List Char → Option Nat
  | [m] => decimalDigit m
  | [m, m'] =>
    if '0' ≤ m ∧ m ≤ '5' then (decimalDigit m').map ((m.toNat - '0'.toNat) * 10 + ·) else none
  | _ => none

/-- `datetime.strptime(text, "%H:%M")`: the minutes since midnight. -/
def strptimeClock (text : String) : Option Nat :=
  match text.toList.span (· != ':') with
  | (hour, ':' :: minute) => do
    let h ← strptimeHour hour
    let m ← strptimeMinute minute
    return h * 60 + m
  | _ => none

/-- `_clock`: a text of another length than `HH:MM` is none. -/
def clock (value : Option String) : Option Nat :=
  value.bind fun text => if text.length = 5 then strptimeClock text else none

/-! ## Windows -/

/-- `_DAYS[day.weekday()]`. -/
def dayName (day : Int) : String :=
  ["mon", "tue", "wed", "thu", "fri", "sat", "sun"].getD (weekday day).toNat ""

/-- `min(candidates, key=..)`, the first of those that start first. -/
def earliest {κ : Type} : List (Int × κ) → Option (Int × κ)
  | [] => none
  | c :: candidates =>
    match earliest candidates with
    | none => some c
    | some best => if best.1 < c.1 then some best else some c

/-- The candidate that an interval makes of a working date, with its end and its identity. The times are
walls of the clock of the moment. -/
def fixedCandidate (wall workingDate : Int) (interval : Interval) : Option (Int × Int × String) :=
  match clock interval.start, clock interval.stop with
  | some starts, some ends =>
    let startsAt := startOfDay workingDate + minutes starts
    let endDate := if ends ≤ starts then workingDate + 1 else workingDate
    let endsAt := startOfDay endDate + minutes ends
    if starts ≠ ends ∧ startsAt ≤ wall ∧ wall < endsAt then
      some (startsAt, endsAt,
        dateText workingDate ++ ":" ++ timeText (starts * 60) ++ ":" ++ timeText (ends * 60))
    else none
  | _, _ => none

/-- `_fixed_window`. -/
def fixedWindow (policy : AutomaticPolicy) (moment : Datetime) : Option ActiveWindow :=
  match policy.schedule with
  | none => none
  | some schedule =>
    let candidates := [moment.date - 1, moment.date].flatMap fun workingDate =>
      (((schedule.lookup (dayName workingDate)).getD []).take 8).filterMap
        (fixedCandidate moment.wall workingDate)
    match earliest candidates with
    | none => none
    | some (_, endsAt, identity) =>
      some {
        key := policy.id ++ ":fixed:" ++ identity
        projectId := policy.projectId
        endsAt := ⟨endsAt, some (moment.utcoffset.getD 0)⟩ }

/-- The candidate that a published shift makes, with its end and its project. -/
def shiftCandidate (policy : AutomaticPolicy) (observed : Int) (window : ShiftWindow) :
    Option (Int × Int × String) :=
  match window.startsAt.bind Datetime.toUtc?, window.endsAt.bind Datetime.toUtc? with
  | some startsAt, some endsAt =>
    if startsAt ≤ observed ∧ observed < endsAt then
      let projectId := window.projectId.getD ""
      some (startsAt, endsAt, if projectId = "" then policy.projectId else projectId)
    else none
  | _, _ => none

/-- `_shift_window`. -/
def shiftWindow (policy : AutomaticPolicy) (moment : Datetime) : Option ActiveWindow :=
  match policy.shiftWindows with
  | none => none
  | some windows =>
    match earliest ((windows.take 100).filterMap (shiftCandidate policy moment.toTimestamptz)) with
    | none => none
    | some (startsAt, endsAt, projectId) =>
      some {
        key := policy.id ++ ":shift:" ++ isoformat startsAt ++ ":" ++ isoformat endsAt
        projectId := projectId
        endsAt := .ofInstant endsAt }

/-- `active_window`. -/
def activeWindow (policy : Option AutomaticPolicy) (moment : Datetime) : Option ActiveWindow :=
  match policy with
  | none => none
  | some policy =>
    if policy.consentStatus ≠ .accepted then none
    else
      match policy.ruleType with
      | .fixedSchedule => fixedWindow policy moment
      | .shifts => shiftWindow policy moment

/-- A window has a key. -/
theorem activeWindow_key_ne {policy : Option AutomaticPolicy} {moment : Datetime} {window : ActiveWindow}
    (h : activeWindow policy moment = some window) : window.key ≠ "" := by
  rcases policy with _ | policy
  · simp [activeWindow] at h
  · unfold activeWindow at h
    dsimp only at h
    split at h
    · simp at h
    · split at h
      · unfold fixedWindow at h
        split at h
        · simp at h
        · dsimp only at h
          split at h
          · simp at h
          · obtain rfl := Option.some.inj h
            simp
      · unfold shiftWindow at h
        split at h
        · simp at h
        · split at h
          · simp at h
          · obtain rfl := Option.some.inj h
            simp

end Dayfinch
