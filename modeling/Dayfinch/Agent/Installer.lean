/-
# Dayfinch.Agent.Installer -- the plans that replace the installed program

An update is staged in the private directory, planned, applied by a helper after the agent has exited, and
reconciled when the agent starts. Each function is a program of steps: what it reads and writes under a
temporary name is one, the rename that makes a file appear is the next, and the sync of the directory
comes after it. A plan is known by the id in the name of its file. Ids come from a counter where the source
calls `uuid.uuid4()`, and `rank` is the order of their texts. The digest is a parameter: a program is
known by its size and its digest. Versions, times and error names, which nothing reads, are left out.
-/
import Dayfinch.Library.Faults
import Dayfinch.Library.Table
import Dayfinch.Library.Run

namespace Dayfinch

open Library (updateWhere orderBy Fate Ending Program)
open Library.Program (attempt)

/-! ## Files and plans -/

abbrev Bytes := List UInt8

/-- The files outside the plans: an installed executable, and in the private directory a staged update,
a rollback copy and a helper. -/
inductive UpdateFile
  | executable (name : String)
  | staged (name : String)
  | backup (planId : Nat)
  | helper (planId : Nat)
  deriving DecidableEq, Repr

inductive PlanStatus
  | pending | replacing | backupFailed | installed | rolledBack | recoveryRequired
  deriving DecidableEq, Repr

/-- The statuses that `reconcile_install_plans` resolves. -/
def PlanStatus.interrupted : PlanStatus → Bool
  | .replacing | .recoveryRequired | .backupFailed => true
  | _ => false

/-- A size and a SHA-256 digest. -/
structure Fingerprint (δ : Type) where
  size : Nat
  sha256 : δ
  deriving DecidableEq, Repr

/-- The payload of a plan file. -/
structure InstallPlan (δ : Type) where
  id : Nat
  status : PlanStatus
  target : String
  staged : String
  old : Fingerprint δ
  new : Fingerprint δ
  originalPid : Int
  deriving DecidableEq, Repr

/-- The checks of `_load_plan` that a plan of `create_install_plan` can fail. -/
def InstallPlan.loads {δ : Type} (plan : InstallPlan δ) : Bool :=
  1 ≤ plan.old.size && 1 ≤ plan.new.size && 0 ≤ plan.originalPid

structure UpdateState (δ : Type) where
  files : UpdateFile → Option Bytes
  plans : List (InstallPlan δ)
  nextId : Nat

section

variable {δ : Type} [DecidableEq δ] (digest : Bytes → δ)

def fingerprint (bytes : Bytes) : Fingerprint δ := ⟨bytes.length, digest bytes⟩

namespace UpdateState

variable (s : UpdateState δ)

/-! ## Atomic steps -/

/-- `os.replace(temporary, file)`. -/
def writeFile (file : UpdateFile) (bytes : Bytes) : UpdateState δ :=
  { s with files := fun f => if f = file then some bytes else s.files f }

/-- `file.unlink(missing_ok=True)`. -/
def removeFile (file : UpdateFile) : UpdateState δ :=
  { s with files := fun f => if f = file then none else s.files f }

/-- The rename in `_write_json` of a plan with its new status. -/
def setStatus (planId : Nat) (status : PlanStatus) : UpdateState δ :=
  { s with plans := updateWhere (·.id == planId) (fun plan => { plan with status := status }) s.plans }

/-- The rename in `_write_json` of a new plan. -/
def addPlan (plan : InstallPlan δ) : UpdateState δ := { s with plans := s.plans ++ [plan] }

/-- `uuid.uuid4()`. -/
def takeId : UpdateState δ := { s with nextId := s.nextId + 1 }

def plan (planId : Nat) : Option (InstallPlan δ) := s.plans.find? (·.id == planId)

/-- `_matches`. -/
def matchesFile (file : UpdateFile) (expected : Fingerprint δ) : Bool :=
  (s.files file).any fun bytes => fingerprint digest bytes == expected

end UpdateState

open UpdateState

/-! ## Pieces of the programs -/

/-- `_write_json` of a plan with a new status; `handler` is where its errors go. -/
def writeStatus (planId : Nat) (status : PlanStatus) (rest handler : Program (UpdateState δ)) :
    Program (UpdateState δ) :=
  .step id (fun _ => .step (setStatus · planId status) (fun _ => .step id (fun _ => rest) fun _ => handler)
    fun _ => handler) fun _ => handler

/-- `_atomic_copy`. -/
def atomicCopy (source destination : UpdateFile) (rest handler : Program (UpdateState δ)) :
    Program (UpdateState δ) :=
  .step id (fun s =>
    match s.files source with
    | none => handler
    | some bytes =>
      .step (writeFile · destination bytes) (fun _ => .step id (fun _ => rest) fun _ => handler)
        fun _ => handler) fun _ => handler

/-- `if not _matches(..): raise`. -/
def checkMatches (file : UpdateFile) (expected : Fingerprint δ) (rest handler : Program (UpdateState δ)) :
    Program (UpdateState δ) :=
  .step id (fun s => if s.matchesFile digest file expected then rest else handler) fun _ => handler

/-! ## `create_install_plan` -/

def createInstallPlan (currentExecutable stagedArtifact : String) (originalPid : Int) :
    Program (UpdateState δ) :=
  attempt takeId fun s =>
  match s.files (.executable currentExecutable), s.files (.staged stagedArtifact) with
  | some current, some staged =>
    atomicCopy (.executable currentExecutable) (.helper s.nextId)
      (attempt id fun _ =>
        attempt
          (addPlan · {
            id := s.nextId
            status := .pending
            target := currentExecutable
            staged := stagedArtifact
            old := fingerprint digest current
            new := fingerprint digest staged
            originalPid := originalPid }) fun _ =>
        attempt id fun _ => .done)
      .raise
  | _, _ => .raise

/-! ## `apply_install_plan` -/

/-- The rollback did not run to its end. -/
def recoveryFails (plan : InstallPlan δ) : Program (UpdateState δ) :=
  writeStatus plan.id .recoveryRequired .raise .raise

/-- The handler of the second `try`: the backup is copied back. -/
def rollBack (plan : InstallPlan δ) : Program (UpdateState δ) :=
  atomicCopy (.backup plan.id) (.executable plan.target)
    (.step id (fun s =>
      if s.matchesFile digest (.executable plan.target) plan.old then
        writeStatus plan.id .rolledBack .raise .raise
      else recoveryFails plan) fun _ => recoveryFails plan)
    (recoveryFails plan)

/-- The second `try`: the update is copied, diagnosed and marked as installed. The step between the two
checks is `--diagnose`. -/
def install (plan : InstallPlan δ) : Program (UpdateState δ) :=
  atomicCopy (.staged plan.staged) (.executable plan.target)
    (checkMatches digest (.executable plan.target) plan.new
      (.step id (fun _ =>
        checkMatches digest (.executable plan.target) plan.new
          (writeStatus plan.id .installed
            (.step (removeFile · (.staged plan.staged)) (fun _ => .done) fun _ => .done)
            (rollBack digest plan))
          (rollBack digest plan)) fun _ => rollBack digest plan)
      (rollBack digest plan))
    (rollBack digest plan)

/-- The handler of the first `try`. -/
def backupFails (plan : InstallPlan δ) : Program (UpdateState δ) :=
  writeStatus plan.id .backupFailed .raise .raise

/-- From the status `replacing` on. -/
def replaceTarget (plan : InstallPlan δ) : Program (UpdateState δ) :=
  atomicCopy (.executable plan.target) (.backup plan.id)
    (checkMatches digest (.backup plan.id) plan.old (install digest plan) (backupFails plan))
    (backupFails plan)

/-- The first step is what is read before anything is written, and the wait for the agent's exit. -/
def applyInstallPlan (planId : Nat) : Program (UpdateState δ) :=
  attempt id fun s =>
  match s.plan planId with
  | none => .raise
  | some plan =>
    if !plan.loads || plan.status != .pending ||
        !s.matchesFile digest (.executable plan.target) plan.old ||
        !s.matchesFile digest (.staged plan.staged) plan.new then .raise
    else writeStatus plan.id .replacing (replaceTarget digest plan) .raise

/-! ## `reconcile_install_plans` -/

/-- The plans by the name of their file, the last first. -/
def plansByName (rank : Nat → Nat) (plans : List (InstallPlan δ)) : List (InstallPlan δ) :=
  orderBy (fun plan => -(rank plan.id : Int)) (fun _ => 0) plans

/-- One turn of the loop. -/
def reconcilePlan (currentExecutable : String) (planId : Nat) (rest : Program (UpdateState δ)) :
    Program (UpdateState δ) :=
  attempt id fun s =>
  match s.plan planId with
  | none => .raise
  | some plan =>
    if !plan.loads then .raise
    else if plan.target ≠ currentExecutable then rest
    else if !plan.status.interrupted then rest
    else if s.matchesFile digest (.executable currentExecutable) plan.new then
      .step (removeFile · (.staged plan.staged)) (fun _ => writeStatus plan.id .installed rest .raise)
        fun _ => writeStatus plan.id .installed rest .raise
    else if s.matchesFile digest (.executable currentExecutable) plan.old then
      writeStatus plan.id .rolledBack rest .raise
    else .raise

def reconcilePlans (currentExecutable : String) : List Nat → Program (UpdateState δ)
  | [] => .done
  | planId :: planIds =>
    reconcilePlan digest currentExecutable planId (reconcilePlans currentExecutable planIds)

def reconcileInstallPlans (rank : Nat → Nat) (currentExecutable : String) : Program (UpdateState δ) :=
  attempt id fun s =>
  if s.plans.isEmpty then .done
  else if (s.files (.executable currentExecutable)).isNone then .raise
  else
    reconcilePlans digest currentExecutable (((plansByName rank s.plans).take 100).map (·.id))

end

/-! ## Calls -/

/-- A call, or a download that stages an update. -/
inductive UpdateOp
  | stage (name : String) (bytes : Bytes)
  | create (currentExecutable stagedArtifact : String) (originalPid : Int)
  | apply (planId : Nat)
  | startUp (currentExecutable : String)
  deriving DecidableEq, Repr

/-- A call, with the fates of its steps. -/
structure UpdateCall where
  op : UpdateOp
  fates : List Fate := []
  deriving DecidableEq, Repr

section

variable {δ : Type} [DecidableEq δ] (digest : Bytes → δ) (rank : Nat → Nat)

def UpdateOp.program : UpdateOp → Program (UpdateState δ)
  | .stage name bytes => attempt (UpdateState.writeFile · (.staged name) bytes) fun _ => .done
  | .create currentExecutable stagedArtifact originalPid =>
    createInstallPlan digest currentExecutable stagedArtifact originalPid
  | .apply planId => applyInstallPlan digest planId
  | .startUp currentExecutable => reconcileInstallPlans digest rank currentExecutable

/-- A call and how it ends. -/
def UpdateCall.run (s : UpdateState δ) (call : UpdateCall) : UpdateState δ × Ending :=
  (call.op.program digest rank).exec call.fates s

def updateStep (s : UpdateState δ) (call : UpdateCall) : UpdateState δ := (call.run digest rank s).1

/-- Executables are installed, and nothing is planned. -/
def UpdateState.unplanned (installed : String → Option Bytes) : UpdateState δ where
  files
    | .executable name => installed name
    | _ => none
  plans := []
  nextId := 0

end

end Dayfinch
