/-
# Dayfinch.Jobs.Coordinator -- periodic jobs of replicas that share a table of leases

Each replica of the API has an owner id of its own and runs a loop for each of its periodic jobs. A round of
the loop is `BackgroundJobCoordinator.run`: it takes the lease of the job's name, in one transaction, and where
it gets it, executes the job. At shutdown the loops are cancelled and joined, and then all leases of the owner
are deleted. A replica may also be gone at any moment, and it is restarted under another owner id.

The lease is taken once and not renewed, so it ends while a long job is still executing. What is true is that
the job of a name is executed once at a time as long as nobody takes over the lease of a job that has outlived
it: `JobOp.takesEndedOnly` is that condition on a step, and `jobs_singleton` the theorem about runs.
-/
import Dayfinch.Clock
import Dayfinch.Library.Outcome
import Dayfinch.Library.Run
import Dayfinch.Library.Table
import Dayfinch.Library.Text
import Dayfinch.Schema

namespace Dayfinch

open Library (updateWhere mem_updateWhere_cases mem_updateWhere_of_false mem_updateWhere_of_mem UniqueKey
  bind_eq_ok run Guarded guarded_invariant)

/-! ## Leases -/

/-- `background_job_leases`; `name` is the primary key. -/
structure JobLease where
  name : String
  ownerId : Nat
  leaseUntil : Int
  deriving DecidableEq, Repr

/-- `claim_background_job`, in a transaction begun at `now`; whether the lease was claimed, and the table. -/
def claimBackgroundJob (now : Int) (name : String) (ownerId : Nat) (leaseSeconds : Int)
    (leases : List JobLease) : Except Error (Bool × List JobLease) := do
  raiseIf (Library.Text.strip name = "" ∨ leaseSeconds < 1) "A job name, owner, and positive lease are required"
  let row : JobLease := { name, ownerId, leaseUntil := now + seconds leaseSeconds }
  if leases.all (·.name != name) then return (true, leases ++ [row])
  else if leases.any fun l => l.name == name && (l.leaseUntil ≤ now || l.ownerId == ownerId) then
    return (true, updateWhere (·.name == name) (fun _ => row) leases)
  else return (false, leases)

/-- `release_background_jobs`. -/
def releaseBackgroundJobs (ownerId : Nat) (leases : List JobLease) : List JobLease :=
  leases.filter (·.ownerId != ownerId)

/-! ## Replicas -/

/-- The jobs of a replica, with the seconds of their leases; each has one loop. -/
structure PeriodicJobs where
  jobs : List (String × Int)
  unique : (jobs.map (·.1)).Nodup

/-- The jobs of `lifespan`. -/
def lifespanJobs (integrationCredentials : Bool) : PeriodicJobs where
  jobs := [("retention", 2 * 60 * 60), ("scheduled-reports", 30 * 60), ("timesheet-generation", 12 * 60 * 60),
    ("github-integration-sync", 10 * 60), ("jira-integration-sync", 10 * 60),
    ("payroll-reconciliation", 15 * 60), ("slack-notification-delivery", 10 * 60),
    ("slack-outbox-retention", 2 * 60 * 60), ("asana-integration-sync", 20 * 60),
    ("asana-comment-sync", 10 * 60), ("oauth-pending-cleanup", 20 * 60), ("jira-worklog-sync", 10 * 60)] ++
    if integrationCredentials then [("integration-credential-rewrap", 2 * 60 * 60)] else []
  unique := by cases integrationCredentials <;> decide +kernel

/-- Where a loop is: `claiming` since its transaction began, `executing` under a lease up to an instant. -/
inductive JobPhase
  | sleeping
  | claiming (since : Int)
  | executing (leaseUntil : Int)
  | ended
  deriving DecidableEq, Repr

/-- When the transaction of the claim began. -/
def JobPhase.since : JobPhase → Option Int
  | claiming since => some since
  | sleeping | executing _ | ended => none

/-- The end of the lease under which the job is executing. -/
def JobPhase.leaseUntil : JobPhase → Option Int
  | executing leaseUntil => some leaseUntil
  | sleeping | claiming _ | ended => none

/-- `run_periodic_job` of one job in one replica. -/
structure JobLoop where
  ownerId : Nat
  name : String
  leaseSeconds : Int
  phase : JobPhase
  cancelled : Bool
  deriving DecidableEq, Repr

namespace JobLoop

/-- The loop of this job in this replica. -/
def is (ownerId : Nat) (name : String) (l : JobLoop) : Bool := l.ownerId == ownerId && l.name == name

/-- The round is over. A cancelled loop that joins its worker ends with it, but an exception of the worker
takes the place of the cancellation: it is logged, and the loop goes on. -/
def finished (raised : Bool) (l : JobLoop) : JobLoop :=
  if l.cancelled && !raised then { l with phase := .ended } else { l with phase := .sleeping, cancelled := false }

/-- `task.cancel()`. -/
def cancel (l : JobLoop) : JobLoop :=
  match l.phase with
  | .sleeping => { l with phase := .ended }
  | .claiming _ | .executing _ => { l with cancelled := true }
  | .ended => l

end JobLoop

/-- The database and the replicas that are up. -/
structure JobSystem where
  now : Int
  leases : List JobLease
  loops : List JobLoop
  nextOwner : Nat
  deriving DecidableEq, Repr

/-- What becomes of the transaction of a claim: the replica learns of its outcome, or it fails, and if it
fails in its last moment it may have been committed. -/
inductive ClaimReply
  | answered
  | failed (committed : Bool)
  deriving DecidableEq, Repr

/-- A step of the replicas, or of time. -/
inductive JobOp
  | tick (elapsed : Nat)
  | start (jobs : PeriodicJobs)
  | begin (ownerId : Nat) (name : String)
  | claim (ownerId : Nat) (name : String) (reply : ClaimReply)
  | finish (ownerId : Nat) (name : String) (raised : Bool)
  | shutdown (ownerId : Nat)
  | release (ownerId : Nat)
  | crash (ownerId : Nat)

namespace JobSystem

/-- The loops of a replica that starts, each before its first round. -/
def startLoops (ownerId : Nat) (jobs : PeriodicJobs) : List JobLoop :=
  jobs.jobs.map fun job =>
    { ownerId, name := job.1, leaseSeconds := job.2, phase := .sleeping, cancelled := false }

/-- One loop goes on. -/
def setLoop (s : JobSystem) (ownerId : Nat) (name : String) (f : JobLoop → JobLoop) : JobSystem :=
  { s with loops := updateWhere (·.is ownerId name) f s.loops }

/-- The transaction of a claim is committed, or fails. -/
def claimed (s : JobSystem) (l : JobLoop) (since : Int) (reply : ClaimReply) : JobSystem :=
  match claimBackgroundJob since l.name l.ownerId l.leaseSeconds s.leases, reply with
  | .error _, _ => s.setLoop l.ownerId l.name (·.finished true)
  | .ok (true, leases), .answered =>
    { s with leases }.setLoop l.ownerId l.name fun l =>
      { l with phase := .executing (since + seconds l.leaseSeconds) }
  | .ok (false, _), .answered => s.setLoop l.ownerId l.name (·.finished false)
  | .ok (_, leases), .failed true => { s with leases }.setLoop l.ownerId l.name (·.finished true)
  | .ok _, .failed false => s.setLoop l.ownerId l.name (·.finished true)

/-- The replicas at work. -/
def step (s : JobSystem) : JobOp → JobSystem
  | .tick elapsed => { s with now := s.now + elapsed }
  | .start jobs => { s with loops := s.loops ++ startLoops s.nextOwner jobs, nextOwner := s.nextOwner + 1 }
  | .begin ownerId name =>
    { s with
      loops := updateWhere (fun l => l.is ownerId name && l.phase == .sleeping)
        (fun l => { l with phase := .claiming s.now }) s.loops }
  | .claim ownerId name reply =>
    match s.loops.find? (·.is ownerId name) with
    | none => s
    | some l =>
      match l.phase.since with
      | none => s
      | some since => s.claimed l since reply
  | .finish ownerId name raised =>
    { s with
      loops := updateWhere (fun l => l.is ownerId name && l.phase.leaseUntil.isSome) (·.finished raised) s.loops }
  | .shutdown ownerId => { s with loops := updateWhere (·.ownerId == ownerId) JobLoop.cancel s.loops }
  | .release ownerId =>
    if s.loops.all (fun l => l.ownerId != ownerId || l.phase == .ended) then
      { s with leases := releaseBackgroundJobs ownerId s.leases
               loops := s.loops.filter (·.ownerId != ownerId) }
    else s
  | .crash ownerId => { s with loops := s.loops.filter (·.ownerId != ownerId) }

/-- A table of leases that earlier replicas have left. -/
def initial (now : Int) (leases : List JobLease) (nextOwner : Nat) : JobSystem :=
  { now, leases, loops := [], nextOwner }

/-- **The property**: the replicas that execute the job of a name are one. -/
def Singleton (s : JobSystem) : Prop :=
  ∀ l ∈ s.loops, ∀ r ∈ s.loops, l.name = r.name → l.phase.leaseUntil.isSome → r.phase.leaseUntil.isSome →
    l.ownerId = r.ownerId

instance (s : JobSystem) : Decidable s.Singleton :=
  inferInstanceAs (Decidable (∀ l ∈ s.loops, ∀ r ∈ s.loops, _ → _ → _ → _))

end JobSystem

/-- **The condition**: when a replica claims a job, no other replica is executing it under a lease that had
ended by the beginning of the claim's transaction. -/
def JobOp.takesEndedOnly (s : JobSystem) : JobOp → Prop
  | .claim ownerId name _ => ∀ l ∈ s.loops, l.is ownerId name = true → ∀ since ∈ l.phase.since,
      ∀ r ∈ s.loops, r.name = name → r.ownerId ≠ ownerId → ∀ leaseUntil ∈ r.phase.leaseUntil,
        since < leaseUntil
  | .tick _ | .start _ | .begin _ _ | .finish _ _ _ | .shutdown _ | .release _ | .crash _ => True

instance (s : JobSystem) : ∀ op : JobOp, Decidable (op.takesEndedOnly s)
  | .claim _ _ _ => inferInstanceAs (Decidable (∀ l ∈ s.loops, _ → ∀ since ∈ l.phase.since, ∀ r ∈ s.loops,
      _ → _ → ∀ leaseUntil ∈ r.phase.leaseUntil, since < leaseUntil))
  | .tick _ | .start _ | .begin _ _ | .finish _ _ _ | .shutdown _ | .release _ | .crash _ => .isTrue trivial

/-! ## Leases are kept -/

/-- What a transaction that claims a lease has done: the row of the name is the replica's, and it was nobody's,
or the replica's before, or had ended. -/
theorem claimBackgroundJob_claimed {now : Int} {name : String} {ownerId : Nat} {leaseSeconds : Int}
    {leases leases' : List JobLease} (hnames : UniqueKey (·.name) leases)
    (h : claimBackgroundJob now name ownerId leaseSeconds leases = .ok (true, leases')) :
    UniqueKey (·.name) leases' ∧ ⟨name, ownerId, now + seconds leaseSeconds⟩ ∈ leases' ∧
      (∀ l ∈ leases, l.name ≠ name → l ∈ leases') ∧
      ∀ l ∈ leases, l.name = name → l.leaseUntil ≤ now ∨ l.ownerId = ownerId := by
  obtain ⟨_, _, h⟩ := bind_eq_ok.mp h
  dsimp only at h
  split at h
  · rename_i hnone
    obtain ⟨-, rfl⟩ := Prod.mk.inj (Except.ok.inj h)
    have hnew : ∀ l ∈ leases, l.name ≠ name := by
      simpa using hnone
    refine ⟨hnames.append_fresh hnew, List.mem_append_right _ List.mem_cons_self,
      fun l hl _ => List.mem_append_left _ hl, fun l hl heq => absurd heq (hnew l hl)⟩
  · split at h
    · rename_i hsome
      obtain ⟨-, rfl⟩ := Prod.mk.inj (Except.ok.inj h)
      obtain ⟨row, hrow, hfree⟩ := List.any_eq_true.mp hsome
      simp only [Bool.and_eq_true, beq_iff_eq, Bool.or_eq_true, decide_eq_true_eq] at hfree
      refine ⟨hnames.updateWhere_of_key fun l _ hl => (beq_iff_eq.mp hl).symm, ?_,
        fun l hl hne => mem_updateWhere_of_false hl (beq_false_of_ne hne), fun l hl heq => ?_⟩
      · have hmem := mem_updateWhere_of_mem (p := (·.name == name))
          (f := fun _ => ⟨name, ownerId, now + seconds leaseSeconds⟩) hrow
        rwa [if_pos (beq_iff_eq.mpr hfree.1)] at hmem
      · rw [hnames.eq hl hrow (heq.trans hfree.1.symm)]
        exact hfree.2
    · cases (Prod.mk.inj (Except.ok.inj h)).1

/-- A transaction that does not claim the lease changes nothing. -/
theorem claimBackgroundJob_refused {now : Int} {name : String} {ownerId : Nat} {leaseSeconds : Int}
    {leases leases' : List JobLease}
    (h : claimBackgroundJob now name ownerId leaseSeconds leases = .ok (false, leases')) :
    leases' = leases := by
  obtain ⟨_, _, h⟩ := bind_eq_ok.mp h
  dsimp only at h
  split at h
  · cases (Prod.mk.inj (Except.ok.inj h)).1
  · split at h
    · cases (Prod.mk.inj (Except.ok.inj h)).1
    · exact (Prod.mk.inj (Except.ok.inj h)).2.symm

/-- The key of a loop. -/
def JobLoop.key (l : JobLoop) : Nat × String := (l.ownerId, l.name)

theorem JobLoop.is_iff {ownerId : Nat} {name : String} {l : JobLoop} :
    l.is ownerId name = true ↔ l.ownerId = ownerId ∧ l.name = name := by
  unfold JobLoop.is
  rw [Bool.and_eq_true, beq_iff_eq, beq_iff_eq]

/-- Owner ids are fresh, keys are unique, and whoever executes a job has the lease of its name. -/
structure JobsSound (s : JobSystem) : Prop where
  loops : UniqueKey JobLoop.key s.loops
  owners : ∀ l ∈ s.loops, l.ownerId < s.nextOwner
  names : UniqueKey (·.name) s.leases
  held : ∀ l ∈ s.loops, ∀ leaseUntil ∈ l.phase.leaseUntil, ⟨l.name, l.ownerId, leaseUntil⟩ ∈ s.leases

/-- **Leases exclude each other**: a name has one row. -/
theorem JobsSound.singleton {s : JobSystem} (h : JobsSound s) : s.Singleton := by
  intro l hl r hr hname hexecutes hexecutes'
  obtain ⟨u, hu⟩ := Option.isSome_iff_exists.mp hexecutes
  obtain ⟨u', hu'⟩ := Option.isSome_iff_exists.mp hexecutes'
  have hrow := h.names.eq (h.held l hl u hu) (h.held r hr u' hu') hname
  exact (JobLease.mk.inj hrow).2.1

/-- A step after which no loop executes that did not before. -/
theorem JobsSound.quiet {s : JobSystem} (h : JobsSound s) {p : JobLoop → Bool} {f : JobLoop → JobLoop}
    (hkey : ∀ l, (f l).key = l.key)
    (hquiet : ∀ l, ∀ leaseUntil ∈ (f l).phase.leaseUntil, leaseUntil ∈ l.phase.leaseUntil) :
    JobsSound { s with loops := updateWhere p f s.loops } where
  loops := h.loops.updateWhere hkey
  owners l hl := by
    rcases mem_updateWhere_cases hl with ⟨hold, _⟩ | ⟨q, hq, _, rfl⟩
    · exact h.owners l hold
    · rw [(Prod.mk.inj (hkey q)).1]
      exact h.owners q hq
  names := h.names
  held l hl leaseUntil huntil := by
    rcases mem_updateWhere_cases hl with ⟨hold, _⟩ | ⟨q, hq, _, rfl⟩
    · exact h.held l hold leaseUntil huntil
    · rw [(Prod.mk.inj (hkey q)).1, (Prod.mk.inj (hkey q)).2]
      exact h.held q hq leaseUntil (hquiet q leaseUntil huntil)

theorem JobLoop.finished_key (raised : Bool) (l : JobLoop) : (l.finished raised).key = l.key := by
  unfold JobLoop.finished
  split <;> rfl

theorem JobLoop.finished_quiet (raised : Bool) (l : JobLoop) : (l.finished raised).phase.leaseUntil = none := by
  unfold JobLoop.finished
  split <;> rfl

/-- A round that is over. -/
theorem JobsSound.finished {s : JobSystem} (h : JobsSound s) (p : JobLoop → Bool) (raised : Bool) :
    JobsSound { s with loops := updateWhere p (·.finished raised) s.loops } := by
  refine h.quiet (JobLoop.finished_key raised) fun l leaseUntil huntil => ?_
  rw [JobLoop.finished_quiet] at huntil
  cases huntil

/-- Replicas that are gone. -/
theorem JobsSound.gone {s : JobSystem} (h : JobsSound s) (ownerId : Nat) :
    JobsSound { s with loops := s.loops.filter (·.ownerId != ownerId) } where
  loops := h.loops.sublist List.filter_sublist
  owners l hl := h.owners l (List.mem_of_mem_filter hl)
  names := h.names
  held l hl := h.held l (List.mem_of_mem_filter hl)

/-- The table after a claim keeps the leases of all jobs that are being executed. -/
theorem JobsSound.held_claimed {s : JobSystem} (h : JobsSound s) {l : JobLoop} (hl : l ∈ s.loops)
    {since : Int} (hsince : l.phase.since = some since) {leases' : List JobLease}
    (hclaim : claimBackgroundJob since l.name l.ownerId l.leaseSeconds s.leases = .ok (true, leases'))
    (hended : ∀ r ∈ s.loops, r.name = l.name → r.ownerId ≠ l.ownerId →
      ∀ leaseUntil ∈ r.phase.leaseUntil, since < leaseUntil) : JobsSound { s with leases := leases' } := by
  obtain ⟨hnames, hrow, hothers, htaken⟩ := claimBackgroundJob_claimed h.names hclaim
  refine ⟨h.loops, h.owners, hnames, fun r hr leaseUntil huntil => ?_⟩
  have hheld := h.held r hr leaseUntil huntil
  by_cases hname : r.name = l.name
  · by_cases howner : r.ownerId = l.ownerId
    · -- the loop that claims is not executing
      rw [h.loops.eq hr hl (Prod.ext howner hname)] at huntil
      cases hphase : l.phase with
      | claiming t => rw [hphase] at huntil; cases huntil
      | sleeping => rw [hphase] at hsince; cases hsince
      | executing t => rw [hphase] at hsince; cases hsince
      | ended => rw [hphase] at hsince; cases hsince
    · have hlive := hended r hr hname howner leaseUntil huntil
      rcases htaken _ hheld hname with hover | hown
      · exact absurd hlive (Int.not_lt.mpr hover)
      · exact absurd hown howner
  · exact hothers _ hheld hname

/-- A loop begins to execute under the lease it has. -/
theorem JobsSound.execute {s : JobSystem} (h : JobsSound s) {ownerId : Nat} {name : String}
    {leaseUntil : JobLoop → Int}
    (hheld : ∀ l ∈ s.loops, l.is ownerId name = true → ⟨l.name, l.ownerId, leaseUntil l⟩ ∈ s.leases) :
    JobsSound (s.setLoop ownerId name fun l => { l with phase := .executing (leaseUntil l) }) where
  loops := h.loops.updateWhere fun _ => rfl
  owners l hl := by
    rcases mem_updateWhere_cases hl with ⟨hold, _⟩ | ⟨q, hq, _, rfl⟩
    · exact h.owners l hold
    · exact h.owners q hq
  names := h.names
  held l hl u hu := by
    rcases mem_updateWhere_cases hl with ⟨hold, _⟩ | ⟨q, hq, hown, rfl⟩
    · exact h.held l hold u hu
    · rw [← Option.some.inj hu]
      exact hheld q hq hown

/-- A claim that takes over ended leases only. -/
theorem JobsSound.claimed {s : JobSystem} (h : JobsSound s) {l : JobLoop} (hl : l ∈ s.loops) {since : Int}
    (hsince : l.phase.since = some since) (reply : ClaimReply)
    (hended : ∀ r ∈ s.loops, r.name = l.name → r.ownerId ≠ l.ownerId →
      ∀ leaseUntil ∈ r.phase.leaseUntil, since < leaseUntil) : JobsSound (s.claimed l since reply) := by
  unfold JobSystem.claimed
  split
  · exact h.finished _ true
  · rename_i leases hclaim
    refine (h.held_claimed hl hsince hclaim hended).execute fun r hr hown => ?_
    obtain ⟨howner, hname⟩ := JobLoop.is_iff.mp hown
    rw [h.loops.eq hr hl (Prod.ext howner hname)]
    exact (claimBackgroundJob_claimed h.names hclaim).2.1
  · exact h.finished _ false
  · rename_i granted leases hclaim
    cases granted with
    | true => exact (h.held_claimed hl hsince hclaim hended).finished _ true
    | false =>
      rw [claimBackgroundJob_refused hclaim]
      exact h.finished _ true
  · exact h.finished _ true

/-- A replica that starts has an owner id of its own. -/
theorem JobsSound.start {s : JobSystem} (h : JobsSound s) (jobs : PeriodicJobs) :
    JobsSound (s.step (.start jobs)) := by
  have hnew : ∀ l ∈ JobSystem.startLoops s.nextOwner jobs,
      l.ownerId = s.nextOwner ∧ l.phase.leaseUntil = none := by
    intro l hl
    obtain ⟨job, _, rfl⟩ := List.mem_map.mp hl
    exact ⟨rfl, rfl⟩
  have hkeys : UniqueKey JobLoop.key (JobSystem.startLoops s.nextOwner jobs) := by
    unfold UniqueKey JobSystem.startLoops
    have hmap : jobs.jobs.map (fun job => (s.nextOwner, job.1)) =
        (jobs.jobs.map (·.1)).map fun name => (s.nextOwner, name) := by
      rw [List.map_map]
      rfl
    rw [List.map_map]
    show (jobs.jobs.map fun job => (s.nextOwner, job.1)).Nodup
    rw [hmap]
    exact jobs.unique.map fun _ _ heq => (Prod.mk.inj heq).2
  constructor
  · show ((s.loops ++ JobSystem.startLoops s.nextOwner jobs).map JobLoop.key).Nodup
    rw [List.map_append, List.nodup_append]
    refine ⟨h.loops, hkeys, ?_⟩
    intro a ha b hb heq
    obtain ⟨l, hl, rfl⟩ := List.mem_map.mp ha
    obtain ⟨r, hr, rfl⟩ := List.mem_map.mp hb
    have hlt := h.owners l hl
    rw [(Prod.mk.inj heq).1, (hnew r hr).1] at hlt
    exact Nat.lt_irrefl _ hlt
  · intro l hl
    rcases List.mem_append.mp hl with hold | hstarted
    · exact Nat.lt_succ_of_lt (h.owners l hold)
    · rw [(hnew l hstarted).1]
      exact Nat.lt_succ_self _
  · exact h.names
  · intro l hl leaseUntil huntil
    rcases List.mem_append.mp hl with hold | hstarted
    · exact h.held l hold leaseUntil huntil
    · rw [(hnew l hstarted).2] at huntil
      cases huntil

/-- A replica whose loops have ended gives back leases under which nothing executes. -/
theorem JobsSound.release {s : JobSystem} (h : JobsSound s) (ownerId : Nat) :
    JobsSound (s.step (.release ownerId)) := by
  unfold JobSystem.step
  dsimp only
  split
  · refine ⟨h.loops.sublist List.filter_sublist, fun l hl => h.owners l (List.mem_of_mem_filter hl),
      h.names.sublist List.filter_sublist, fun l hl leaseUntil huntil => ?_⟩
    obtain ⟨hmem, hother⟩ := List.mem_filter.mp hl
    exact List.mem_filter.mpr ⟨h.held l hmem leaseUntil huntil, hother⟩
  · exact h

theorem JobLoop.cancel_key (l : JobLoop) : l.cancel.key = l.key := by
  unfold JobLoop.cancel
  split <;> rfl

theorem JobLoop.cancel_quiet (l : JobLoop) :
    ∀ leaseUntil ∈ l.cancel.phase.leaseUntil, leaseUntil ∈ l.phase.leaseUntil := by
  intro leaseUntil huntil
  unfold JobLoop.cancel at huntil
  split at huntil
  · cases huntil
  · exact huntil
  · exact huntil
  · exact huntil

/-- **One step** that takes over ended leases only keeps the leases of all jobs that are being executed. -/
theorem JobsSound.step {s : JobSystem} (h : JobsSound s) (op : JobOp) (hended : op.takesEndedOnly s) :
    JobsSound (s.step op) := by
  cases op with
  | tick elapsed => exact ⟨h.loops, h.owners, h.names, h.held⟩
  | start jobs => exact h.start jobs
  | begin ownerId name => exact h.quiet (fun _ => rfl) fun _ _ huntil => nomatch huntil
  | claim ownerId name reply =>
    unfold JobSystem.step
    dsimp only
    cases hfind : s.loops.find? (·.is ownerId name) with
    | none => exact h
    | some l =>
      have hl := List.mem_of_find?_eq_some hfind
      have hown := List.find?_some hfind
      dsimp only
      cases hsince : l.phase.since with
      | none => exact h
      | some since =>
        obtain ⟨rfl, rfl⟩ := JobLoop.is_iff.mp hown
        exact h.claimed hl hsince reply fun r hr hname hother =>
          hended l hl hown since hsince r hr hname hother
  | finish ownerId name raised => exact h.finished _ raised
  | shutdown ownerId => exact h.quiet JobLoop.cancel_key JobLoop.cancel_quiet
  | release ownerId => exact h.release ownerId
  | crash ownerId => exact h.gone ownerId

/-! ## Runs -/

theorem jobsSound_initial (now : Int) {leases : List JobLease} (nextOwner : Nat)
    (hnames : UniqueKey (·.name) leases) : JobsSound (.initial now leases nextOwner) where
  loops := List.nodup_nil
  owners _ hl := nomatch hl
  names := hnames
  held _ hl := nomatch hl

/-- **Periodic jobs are singletons** in every run in which only ended leases are taken over from jobs. -/
theorem jobs_singleton (now : Int) (leases : List JobLease) (nextOwner : Nat)
    (hnames : UniqueKey (·.name) leases) (ops : List JobOp)
    (hended : Guarded JobSystem.step (fun s op => op.takesEndedOnly s) (.initial now leases nextOwner) ops) :
    (run JobSystem.step (.initial now leases nextOwner) ops).Singleton :=
  JobsSound.singleton (guarded_invariant JobsSound (fun _ op h hmeets => h.step op hmeets)
    (jobsSound_initial now nextOwner hnames) hended)

/-- Two replicas of which the first executes a job; the second has begun a claim after some time. -/
def secondClaims (elapsed : Nat) : List JobOp :=
  [.start (lifespanJobs false), .start (lifespanJobs true), .begin 0 "scheduled-reports",
   .claim 0 "scheduled-reports" .answered, .tick elapsed, .begin 1 "scheduled-reports"]

/-- The second claim comes within the lease, and is refused. -/
theorem jobs_singleton_refused :
    (run JobSystem.step (.initial 0 [] 0)
      (secondClaims 1799999999 ++ [.claim 1 "scheduled-reports" .answered])).Singleton :=
  jobs_singleton 0 [] 0 List.nodup_nil _ (by decide +kernel)

/-- **A job outlives its lease**: the reports take half an hour, and a second replica begins to send them. -/
theorem jobs_notSingleton :
    ¬ ∀ (now : Int) (leases : List JobLease) (nextOwner : Nat) (ops : List JobOp),
      UniqueKey (·.name) leases → (run JobSystem.step (.initial now leases nextOwner) ops).Singleton := by
  intro h
  have hsingleton := h 0 [] 0 (secondClaims 1800000000 ++ [.claim 1 "scheduled-reports" .answered])
    List.nodup_nil
  exact absurd hsingleton (by decide +kernel)

end Dayfinch
