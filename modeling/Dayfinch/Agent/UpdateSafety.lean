/-
# Dayfinch.Agent.UpdateSafety -- updates that fail and crash, and the agent that starts after them

Whatever steps fail and wherever the helper crashes, the target holds the program that a plan verified as
the old one or the update that it verified as the new one, and the old program has a copy when a plan is
left in the middle. `UpdateInvariant` says so of the files and plans between calls. It also says that the
target holds one of the two programs of every interrupted plan, which is what the start of the agent needs.
An update that is applied over an interrupted plan breaks that, and a plan beyond the first hundred is not
looked at; `soundUpdate` excludes these.
-/
import Dayfinch.Agent.Installer

namespace Dayfinch

open Library (updateWhere mem_updateWhere_cases CountedKeys UniqueKey Fate Ending Program Guarded
  guarded_invariant)
open Library.Program (attempt MeetsIf exec_meetsIf)
open UpdateState

section

variable {δ : Type} {digest : Bytes → δ} {s : UpdateState δ}

/-! ## Invariants -/

/-- The file holds bytes with the fingerprint. -/
def FileIs (digest : Bytes → δ) (s : UpdateState δ) (file : UpdateFile) (expected : Fingerprint δ) : Prop :=
  ∃ bytes, s.files file = some bytes ∧ fingerprint digest bytes = expected

/-- Some rollback copy holds bytes with the fingerprint. -/
def BackedUp (digest : Bytes → δ) (s : UpdateState δ) (expected : Fingerprint δ) : Prop :=
  ∃ planId, FileIs digest s (.backup planId) expected

/-- What holds between calls. -/
structure UpdateInvariant (digest : Bytes → δ) (s : UpdateState δ) : Prop where
  planIds : CountedKeys (fun plan : InstallPlan δ => plan.id) s.plans s.nextId
  unused : ∀ planId, s.nextId ≤ planId → s.files (.backup planId) = none
  fresh : ∀ plan ∈ s.plans, plan.status = .pending → s.files (.backup plan.id) = none
  loads : ∀ plan ∈ s.plans, plan.loads
  changes : ∀ plan ∈ s.plans, plan.status = .replacing → plan.old ≠ plan.new
  saved : ∀ plan ∈ s.plans, plan.status = .replacing →
    FileIs digest s (.executable plan.target) plan.old ∨ BackedUp digest s plan.old
  known : ∀ plan ∈ s.plans, plan.status.interrupted →
    FileIs digest s (.executable plan.target) plan.old ∨ FileIs digest s (.executable plan.target) plan.new

/-! ## Steps -/

/-- The plans after one of them has its new status. -/
theorem mem_setStatus {planId : Nat} {status : PlanStatus} {plan : InstallPlan δ}
    (h : plan ∈ (s.setStatus planId status).plans) :
    plan ∈ s.plans ∧ plan.id ≠ planId ∨
      ∃ before ∈ s.plans, before.id = planId ∧ plan = { before with status := status } := by
  rcases mem_updateWhere_cases h with ⟨hmem, hother⟩ | ⟨before, hbefore, hid, rfl⟩
  · exact .inl ⟨hmem, by simpa using hother⟩
  · exact .inr ⟨before, hbefore, by simpa using hid, rfl⟩

@[simp] theorem writeFile_self (file : UpdateFile) (bytes : Bytes) :
    (s.writeFile file bytes).files file = some bytes := if_pos rfl

theorem writeFile_other {file other : UpdateFile} (bytes : Bytes) (h : other ≠ file) :
    (s.writeFile file bytes).files other = s.files other := if_neg h

theorem removeFile_other {file other : UpdateFile} (h : other ≠ file) :
    (s.removeFile file).files other = s.files other := if_neg h

/-- A status that is neither pending nor interrupted asks for nothing. -/
theorem UpdateInvariant.resolve (h : UpdateInvariant digest s) (planId : Nat) {status : PlanStatus}
    (hpending : status ≠ .pending) (hresolved : status.interrupted = false) :
    UpdateInvariant digest (s.setStatus planId status) := by
  have hreplacing : status ≠ .replacing := by
    rintro rfl
    simp [PlanStatus.interrupted] at hresolved
  constructor
  · exact h.planIds.updateWhere fun _ => rfl
  · exact h.unused
  · intro plan hplan hstatus
    rcases mem_setStatus hplan with ⟨hmem, _⟩ | ⟨before, _, _, rfl⟩
    · exact h.fresh plan hmem hstatus
    · exact absurd hstatus hpending
  · intro plan hplan
    rcases mem_setStatus hplan with ⟨hmem, _⟩ | ⟨before, hmem, _, rfl⟩
    · exact h.loads plan hmem
    · exact h.loads before hmem
  · intro plan hplan hstatus
    rcases mem_setStatus hplan with ⟨hmem, _⟩ | ⟨before, _, _, rfl⟩
    · exact h.changes plan hmem hstatus
    · exact absurd hstatus hreplacing
  · intro plan hplan hstatus
    rcases mem_setStatus hplan with ⟨hmem, _⟩ | ⟨before, _, _, rfl⟩
    · exact h.saved plan hmem hstatus
    · exact absurd hstatus hreplacing
  · intro plan hplan hstatus
    rcases mem_setStatus hplan with ⟨hmem, _⟩ | ⟨before, _, _, rfl⟩
    · exact h.known plan hmem hstatus
    · rw [hresolved] at hstatus
      simp at hstatus

/-- Executables and rollback copies are all that the invariant reads of the files. -/
theorem UpdateInvariant.of_files (h : UpdateInvariant digest s) {files : UpdateFile → Option Bytes}
    (hexecutables : ∀ name, files (.executable name) = s.files (.executable name))
    (hbackups : ∀ planId, files (.backup planId) = s.files (.backup planId)) :
    UpdateInvariant digest { s with files := files } := by
  have hholds : ∀ name expected, FileIs digest s (.executable name) expected →
      FileIs digest { s with files := files } (.executable name) expected := by
    rintro name expected ⟨bytes, hbytes, hsame⟩
    exact ⟨bytes, (hexecutables name).trans hbytes, hsame⟩
  constructor
  · exact h.planIds
  · intro planId hid
    exact (hbackups planId).trans (h.unused planId hid)
  · intro plan hplan hstatus
    exact (hbackups plan.id).trans (h.fresh plan hplan hstatus)
  · exact h.loads
  · exact h.changes
  · intro plan hplan hstatus
    rcases h.saved plan hplan hstatus with htarget | ⟨planId, bytes, hbytes, hsame⟩
    · exact .inl (hholds _ _ htarget)
    · exact .inr ⟨planId, bytes, (hbackups planId).trans hbytes, hsame⟩
  · intro plan hplan hstatus
    rcases h.known plan hplan hstatus with htarget | htarget
    · exact .inl (hholds _ _ htarget)
    · exact .inr (hholds _ _ htarget)

/-! ## A plan that is applied -/

/-- A plan in progress: `before` and `after` are the bytes that its target had at first and those of the
verified update. The target holds the first, or the second when the first are in the rollback copy. -/
structure Applying (s : UpdateState δ) (plan : InstallPlan δ) (before after : Bytes)
    (s' : UpdateState δ) : Prop where
  nextId : s'.nextId = s.nextId
  plans : ∃ status, status ≠ .pending ∧ s'.plans = (s.setStatus plan.id status).plans
  executables : ∀ name, name ≠ plan.target → s'.files (.executable name) = s.files (.executable name)
  backups : ∀ planId, planId ≠ plan.id → s'.files (.backup planId) = s.files (.backup planId)
  target : s'.files (.executable plan.target) = some before ∨
    s'.files (.executable plan.target) = some after ∧ s'.files (.backup plan.id) = some before

/-- The condition for applying a plan: it changes the program, and every other interrupted plan of the
target knows the update. -/
def Applicable (s : UpdateState δ) (plan : InstallPlan δ) : Prop :=
  plan.old ≠ plan.new ∧ ∀ other ∈ s.plans, other.id ≠ plan.id → other.target = plan.target →
    other.status.interrupted → plan.new = other.old ∨ plan.new = other.new

/-- **The invariant holds at every point of an application.** -/
theorem Applying.invariant {s' : UpdateState δ} {plan : InstallPlan δ} {before after : Bytes}
    (h : UpdateInvariant digest s) (hplan : plan ∈ s.plans) (hpending : plan.status = .pending)
    (hbefore : s.files (.executable plan.target) = some before)
    (hold : fingerprint digest before = plan.old) (hnew : fingerprint digest after = plan.new)
    (happlicable : Applicable s plan) (happlying : Applying s plan before after s') :
    UpdateInvariant digest s' := by
  obtain ⟨hnext, ⟨status, hstatus, hplans⟩, hexecutables, hbackups, htarget⟩ := happlying
  have hcases : ∀ p ∈ s'.plans, p ∈ s.plans ∧ p.id ≠ plan.id ∨ p = { plan with status := status } := by
    intro p hp
    rw [hplans] at hp
    rcases mem_setStatus hp with hother | ⟨q, hq, hid, rfl⟩
    · exact .inl hother
    · rw [h.planIds.unique.eq hq hplan hid]
      exact .inr rfl
  -- what the target held is there or backed up, and what it holds is known to the plan
  have hsaved : ∀ expected, fingerprint digest before = expected →
      FileIs digest s' (.executable plan.target) expected ∨ BackedUp digest s' expected := by
    intro expected hsame
    rcases htarget with hkept | ⟨_, hbackup⟩
    · exact .inl ⟨before, hkept, hsame⟩
    · exact .inr ⟨plan.id, before, hbackup, hsame⟩
  have hbacked : ∀ expected, BackedUp digest s expected → BackedUp digest s' expected := by
    rintro expected ⟨planId, bytes, hbytes, hsame⟩
    by_cases hid : planId = plan.id
    · rw [hid, h.fresh plan hplan hpending] at hbytes
      simp at hbytes
    · exact ⟨planId, bytes, (hbackups planId hid).trans hbytes, hsame⟩
  have helsewhere : ∀ name expected, name ≠ plan.target → FileIs digest s (.executable name) expected →
      FileIs digest s' (.executable name) expected := by
    rintro name expected hname ⟨bytes, hbytes, hsame⟩
    exact ⟨bytes, (hexecutables name hname).trans hbytes, hsame⟩
  have hwas : ∀ expected, FileIs digest s (.executable plan.target) expected →
      fingerprint digest before = expected := by
    rintro expected ⟨bytes, hbytes, hsame⟩
    obtain rfl := Option.some.inj (hbefore.symm.trans hbytes)
    exact hsame
  constructor
  · rw [hplans, hnext]
    exact h.planIds.updateWhere fun _ => rfl
  · intro planId hid
    rw [hnext] at hid
    have hother : planId ≠ plan.id := (lt_of_lt_of_le (h.planIds.below plan hplan) hid).ne'
    exact (hbackups planId hother).trans (h.unused planId hid)
  · intro p hp hwaits
    rcases hcases p hp with ⟨hmem, hother⟩ | rfl
    · exact (hbackups p.id hother).trans (h.fresh p hmem hwaits)
    · exact absurd hwaits hstatus
  · intro p hp
    rcases hcases p hp with ⟨hmem, _⟩ | rfl
    · exact h.loads p hmem
    · exact h.loads plan hplan
  · intro p hp hreplacing
    rcases hcases p hp with ⟨hmem, _⟩ | rfl
    · exact h.changes p hmem hreplacing
    · exact happlicable.1
  · intro p hp hreplacing
    rcases hcases p hp with ⟨hmem, _⟩ | rfl
    · rcases h.saved p hmem hreplacing with hheld | hbackup
      · by_cases hname : p.target = plan.target
        · rw [hname] at hheld ⊢
          exact hsaved p.old (hwas p.old hheld)
        · exact .inl (helsewhere _ _ hname hheld)
      · exact .inr (hbacked p.old hbackup)
    · exact hsaved plan.old hold
  · intro p hp hinterrupted
    rcases hcases p hp with ⟨hmem, hother⟩ | rfl
    · by_cases hname : p.target = plan.target
      · rcases htarget with hkept | ⟨hreplaced, _⟩
        · rw [hname]
          refine (h.known p hmem hinterrupted).imp ?_ ?_ <;> rw [hname] <;> intro hheld
          · exact ⟨before, hkept, hwas p.old hheld⟩
          · exact ⟨before, hkept, hwas p.new hheld⟩
        · rw [hname]
          refine (happlicable.2 p hmem hother hname hinterrupted).imp ?_ ?_ <;> intro hsame
          · exact ⟨after, hreplaced, hnew.trans hsame⟩
          · exact ⟨after, hreplaced, hnew.trans hsame⟩
      · refine (h.known p hmem hinterrupted).imp ?_ ?_ <;> exact helsewhere _ _ hname
    · rcases htarget with hkept | ⟨hreplaced, _⟩
      · exact .inl ⟨before, hkept, hold⟩
      · exact .inr ⟨after, hreplaced, hnew⟩

/-! ## What keeps a plan in progress -/

theorem setStatus_setStatus (planId : Nat) (status status' : PlanStatus) :
    (s.setStatus planId status).setStatus planId status' = s.setStatus planId status' := by
  unfold setStatus
  congr 1
  unfold updateWhere
  rw [List.map_map]
  refine List.map_congr_left fun plan _ => ?_
  by_cases hid : plan.id = planId <;> simp [hid]

namespace Applying

variable {plan : InstallPlan δ} {before after : Bytes} {s' : UpdateState δ}

theorem start (hbefore : s.files (.executable plan.target) = some before) {status : PlanStatus}
    (hstatus : status ≠ .pending) : Applying s plan before after (s.setStatus plan.id status) :=
  ⟨rfl, ⟨status, hstatus, rfl⟩, fun _ _ => rfl, fun _ _ => rfl, .inl hbefore⟩

theorem setStatus (h : Applying s plan before after s') {status : PlanStatus} (hstatus : status ≠ .pending) :
    Applying s plan before after (s'.setStatus plan.id status) := by
  obtain ⟨before', _, hplans⟩ := h.plans
  refine ⟨h.nextId, ⟨status, hstatus, ?_⟩, h.executables, h.backups, h.target⟩
  have hsame : (s'.setStatus plan.id status).plans =
      ((s.setStatus plan.id before').setStatus plan.id status).plans := by
    show updateWhere _ _ s'.plans = updateWhere _ _ (s.setStatus plan.id before').plans
    rw [hplans]
  rw [hsame, setStatus_setStatus]

/-- The old program is copied away while the target still holds it. -/
theorem backUp (h : Applying s plan before after s')
    (htarget : s'.files (.executable plan.target) = some before) :
    Applying s plan before after (s'.writeFile (.backup plan.id) before) := by
  refine ⟨h.nextId, h.plans, ?_, ?_, .inl ?_⟩
  · intro name hname
    rw [writeFile_other _ (by simp)]
    exact h.executables name hname
  · intro planId hid
    rw [writeFile_other _ (by simpa using hid)]
    exact h.backups planId hid
  · rw [writeFile_other _ (by simp)]
    exact htarget

/-- The target may change when the old program has its copy. -/
theorem write (h : Applying s plan before after s')
    (hbackup : s'.files (.backup plan.id) = some before) {bytes : Bytes}
    (hbytes : bytes = before ∨ bytes = after) :
    Applying s plan before after (s'.writeFile (.executable plan.target) bytes) := by
  refine ⟨h.nextId, h.plans, ?_, ?_, ?_⟩
  · intro name hname
    rw [writeFile_other _ (by simpa using hname)]
    exact h.executables name hname
  · intro planId hid
    rw [writeFile_other _ (by simp)]
    exact h.backups planId hid
  · rcases hbytes with rfl | rfl
    · exact .inl (writeFile_self _ _)
    · exact .inr ⟨writeFile_self _ _, hbackup⟩

theorem unstage (h : Applying s plan before after s') (name : String) :
    Applying s plan before after (s'.removeFile (.staged name)) := by
  refine ⟨h.nextId, h.plans, ?_, ?_, ?_⟩
  · intro other hother
    rw [removeFile_other (by simp)]
    exact h.executables other hother
  · intro planId hid
    rw [removeFile_other (by simp)]
    exact h.backups planId hid
  · rw [removeFile_other (by simp), removeFile_other (by simp)]
    exact h.target

end Applying

/-! ## Rules for the pieces -/

section

variable {failing : Prop} {Q : Ending → UpdateState δ → Prop} {rest handler : Program (UpdateState δ)}

theorem meets_writeStatus {planId : Nat} {status : PlanStatus} (hs : Q .crashed s)
    (hs' : Q .crashed (s.setStatus planId status))
    (hrest : rest.MeetsIf failing Q (s.setStatus planId status))
    (hhandler : failing → handler.MeetsIf failing Q s)
    (hhandler' : failing → handler.MeetsIf failing Q (s.setStatus planId status)) :
    (writeStatus planId status rest handler).MeetsIf failing Q s :=
  ⟨hs, ⟨hs, ⟨hs', hrest, hhandler'⟩, hhandler⟩, hhandler⟩

theorem meets_atomicCopy {source destination : UpdateFile} {bytes : Bytes}
    (hsource : s.files source = some bytes) (hs : Q .crashed s)
    (hs' : Q .crashed (s.writeFile destination bytes))
    (hrest : rest.MeetsIf failing Q (s.writeFile destination bytes))
    (hhandler : failing → handler.MeetsIf failing Q s)
    (hhandler' : failing → handler.MeetsIf failing Q (s.writeFile destination bytes)) :
    (atomicCopy source destination rest handler).MeetsIf failing Q s := by
  refine ⟨hs, ?_, hhandler⟩
  dsimp only [id_eq]
  rw [hsource]
  exact ⟨hs, ⟨hs', hrest, hhandler'⟩, hhandler⟩

/-- The plan is in progress wherever the program ends. -/
abbrev InProgress (s : UpdateState δ) (plan : InstallPlan δ) (before after : Bytes) :
    Ending → UpdateState δ → Prop := fun _ s' => Applying s plan before after s'

theorem raiseWith_meets {plan : InstallPlan δ} {before after : Bytes} {s' : UpdateState δ}
    (h : Applying s plan before after s') {status : PlanStatus} (hstatus : status ≠ .pending) :
    (writeStatus plan.id status .raise .raise).MeetsIf True (InProgress s plan before after) s' :=
  meets_writeStatus h (h.setStatus hstatus) (h.setStatus hstatus) (fun _ => h)
    fun _ => h.setStatus hstatus

end

/-! ## `create_install_plan` -/

/-- What a call that changes no program leaves. -/
abbrev KeepsPrograms (digest : Bytes → δ) (s : UpdateState δ) : Ending → UpdateState δ → Prop :=
  fun _ s' => UpdateInvariant digest s' ∧ ∀ name, s'.files (.executable name) = s.files (.executable name)

/-- A new plan that can be loaded. -/
theorem UpdateInvariant.addPlan (h : UpdateInvariant digest s) {planId : Nat} (hid : planId < s.nextId)
    (hunused : ∀ plan ∈ s.plans, plan.id ≠ planId) (hbackup : s.files (.backup planId) = none)
    {plan : InstallPlan δ} (hplan : plan.id = planId) (hpending : plan.status = .pending)
    (hloads : plan.loads) : UpdateInvariant digest (s.addPlan plan) := by
  have hcases : ∀ p ∈ (s.addPlan plan).plans, p ∈ s.plans ∨ p = plan := by
    intro p hp
    rcases List.mem_append.mp hp with hold | hnew
    · exact .inl hold
    · exact .inr (List.mem_singleton.mp hnew)
  constructor
  · refine ⟨h.planIds.unique.append_fresh fun p hp => ?_, fun p hp => ?_⟩
    · rw [hplan]
      exact hunused p hp
    · rcases hcases p hp with hold | rfl
      · exact h.planIds.below p hold
      · exact hplan.trans_lt hid
  · exact h.unused
  · intro p hp hstatus
    rcases hcases p hp with hold | rfl
    · exact h.fresh p hold hstatus
    · show s.files (.backup p.id) = none
      rw [hplan]
      exact hbackup
  · intro p hp
    rcases hcases p hp with hold | rfl
    · exact h.loads p hold
    · exact hloads
  · intro p hp hstatus
    rcases hcases p hp with hold | rfl
    · exact h.changes p hold hstatus
    · rw [hpending] at hstatus
      simp at hstatus
  · intro p hp hstatus
    rcases hcases p hp with hold | rfl
    · exact h.saved p hold hstatus
    · rw [hpending] at hstatus
      simp at hstatus
  · intro p hp hstatus
    rcases hcases p hp with hold | rfl
    · exact h.known p hold hstatus
    · rw [hpending] at hstatus
      simp [PlanStatus.interrupted] at hstatus

theorem UpdateInvariant.takeId (h : UpdateInvariant digest s) : UpdateInvariant digest s.takeId :=
  ⟨h.planIds.mono (Nat.le_succ _), fun planId hid => h.unused planId (le_trans (Nat.le_succ _) hid),
    h.fresh, h.loads, h.changes, h.saved, h.known⟩

/-- Files that are neither executables nor rollback copies come and go. -/
theorem UpdateInvariant.writeFile (h : UpdateInvariant digest s) {file : UpdateFile} (bytes : Bytes)
    (hexecutable : ∀ name, file ≠ .executable name) (hbackup : ∀ planId, file ≠ .backup planId) :
    UpdateInvariant digest (s.writeFile file bytes) :=
  h.of_files (fun name => if_neg (hexecutable name).symm) fun planId => if_neg (hbackup planId).symm

theorem createInstallPlan_meets (h : UpdateInvariant digest s) {executable staged : String}
    {originalPid : Int}
    (hloads : ∀ current update, s.files (.executable executable) = some current →
      s.files (.staged staged) = some update →
        1 ≤ current.length ∧ 1 ≤ update.length ∧ 0 ≤ originalPid) :
    (createInstallPlan digest executable staged originalPid).MeetsIf True (KeepsPrograms digest s) s := by
  have hs : KeepsPrograms digest s .crashed s := ⟨h, fun _ => rfl⟩
  have htaken : KeepsPrograms digest s .crashed s.takeId := ⟨h.takeId, fun _ => rfl⟩
  refine ⟨hs, ?_, fun _ => hs⟩
  dsimp only
  split
  · next current update hcurrent hupdate =>
    have hhelper : KeepsPrograms digest s .crashed (s.takeId.writeFile (.helper s.nextId) current) :=
      ⟨htaken.1.writeFile current (by simp) (by simp), fun name => writeFile_other current (by simp)⟩
    refine meets_atomicCopy hcurrent htaken hhelper ?_ (fun _ => htaken) fun _ => hhelper
    refine ⟨hhelper, ?_, fun _ => hhelper⟩
    obtain ⟨hcurrentSize, hupdateSize, hpid⟩ := hloads current update hcurrent hupdate
    have hadded : KeepsPrograms digest s .crashed ((s.takeId.writeFile (.helper s.nextId) current).addPlan
        { id := s.nextId, status := .pending, target := executable, staged := staged,
          old := fingerprint digest current, new := fingerprint digest update,
          originalPid := originalPid }) := by
      refine ⟨hhelper.1.addPlan (Nat.lt_succ_self _) (fun p hp => (h.planIds.below p hp).ne) ?_ rfl rfl ?_,
        hhelper.2⟩
      · rw [writeFile_other _ (by simp)]
        exact h.unused s.nextId le_rfl
      · simp [InstallPlan.loads, fingerprint, hcurrentSize, hupdateSize, hpid]
    exact ⟨hhelper, ⟨hadded, hadded, fun _ => hadded⟩, fun _ => hhelper⟩
  · exact htaken

theorem updateInvariant_unplanned (installed : String → Option Bytes) :
    UpdateInvariant digest (.unplanned installed) :=
  ⟨.nil _ _, fun _ _ => rfl, nofun, nofun, nofun, nofun, nofun⟩

/-! ## Plans that are reconciled -/

/-- A start that has the plans in `left` before it: those that are interrupted are among them. -/
structure Reconciling (digest : Bytes → δ) (s : UpdateState δ) (name : String) (left : List Nat)
    (s' : UpdateState δ) : Prop where
  invariant : UpdateInvariant digest s'
  programs : ∀ other, s'.files (.executable other) = s.files (.executable other)
  present : ∀ planId ∈ left, ∃ plan ∈ s'.plans, plan.id = planId
  pending : ∀ plan ∈ s'.plans, plan.target = name → plan.status.interrupted → plan.id ∈ left

/-- What a start leaves: the programs, no interrupted plan when it returns, and it raises only when one of
its steps fails. -/
def Started (digest : Bytes → δ) (s : UpdateState δ) (name : String) (failing : Prop) (e : Ending)
    (s' : UpdateState δ) : Prop :=
  KeepsPrograms digest s e s' ∧ (e = .raised → failing) ∧
    (e = .returned → ∀ plan ∈ s'.plans, plan.target = name → plan.status.interrupted = false)

namespace Reconciling

variable {name : String} {planId : Nat} {left : List Nat} {s' : UpdateState δ}

theorem crashed (h : Reconciling digest s name left s') (failing : Prop) :
    Started digest s name failing .crashed s' := ⟨⟨h.invariant, h.programs⟩, nofun, nofun⟩

theorem raised (h : Reconciling digest s name left s') {failing : Prop} (hfailing : failing) :
    Started digest s name failing .raised s' := ⟨⟨h.invariant, h.programs⟩, fun _ => hfailing, nofun⟩

/-- A plan that is not interrupted, or not the target's, is passed over. -/
theorem skip (h : Reconciling digest s name (planId :: left) s')
    (hdone : ∀ plan ∈ s'.plans, plan.id = planId → plan.target = name → plan.status.interrupted = false) :
    Reconciling digest s name left s' := by
  refine ⟨h.invariant, h.programs, fun id hid => h.present id (List.mem_cons_of_mem _ hid), ?_⟩
  intro plan hplan hname hinterrupted
  rcases List.mem_cons.mp (h.pending plan hplan hname hinterrupted) with hid | hleft
  · rw [hdone plan hplan hid hname] at hinterrupted
    simp at hinterrupted
  · exact hleft

/-- A plan that is resolved. -/
theorem resolve (h : Reconciling digest s name (planId :: left) s') {status : PlanStatus}
    (hpending : status ≠ .pending) (hresolved : status.interrupted = false) :
    Reconciling digest s name left (s'.setStatus planId status) := by
  refine ⟨h.invariant.resolve planId hpending hresolved, h.programs, ?_, ?_⟩
  · intro id hid
    obtain ⟨plan, hplan, rfl⟩ := h.present id (List.mem_cons_of_mem _ hid)
    refine ⟨_, Library.mem_updateWhere_of_mem hplan, ?_⟩
    split <;> rfl
  · intro plan hplan hname hinterrupted
    rcases mem_setStatus hplan with ⟨hmem, hother⟩ | ⟨before, _, _, rfl⟩
    · rcases List.mem_cons.mp (h.pending plan hmem hname hinterrupted) with hid | hleft
      · exact absurd hid hother
      · exact hleft
    · rw [hresolved] at hinterrupted
      simp at hinterrupted

theorem unstage (h : Reconciling digest s name left s') (staged : String) :
    Reconciling digest s name left (s'.removeFile (.staged staged)) := by
  refine ⟨h.invariant.of_files (fun _ => if_neg (by simp)) fun _ => if_neg (by simp), ?_,
    h.present, h.pending⟩
  intro other
  rw [removeFile_other (by simp)]
  exact h.programs other

/-- The write of a resolved plan, and the rest of the loop. -/
theorem write_meets (h : Reconciling digest s name (planId :: left) s') {status : PlanStatus}
    (hpending : status ≠ .pending) (hresolved : status.interrupted = false) {failing : Prop}
    {rest : Program (UpdateState δ)}
    (hrest : ∀ s', Reconciling digest s name left s' →
      rest.MeetsIf failing (Started digest s name failing) s') :
    (writeStatus planId status rest .raise).MeetsIf failing (Started digest s name failing) s' :=
  meets_writeStatus (h.crashed failing) ((h.resolve hpending hresolved).crashed failing)
    (hrest _ (h.resolve hpending hresolved)) h.raised (h.resolve hpending hresolved).raised

end Reconciling

/-- The interrupted plans of an executable are among those that a start looks at. -/
def LookedAt (rank : Nat → Nat) (s : UpdateState δ) (name : String) : Prop :=
  ∀ plan ∈ s.plans, plan.target = name → plan.status.interrupted →
    plan.id ∈ ((plansByName rank s.plans).take 100).map (·.id)

theorem mem_plansByName {rank : Nat → Nat} {plans : List (InstallPlan δ)} {plan : InstallPlan δ} :
    plan ∈ plansByName rank plans ↔ plan ∈ plans := by
  unfold plansByName Library.orderBy
  exact List.mem_insertionSort _

end

/-! ## The checks -/

section

variable {δ : Type} [DecidableEq δ] {digest : Bytes → δ} {s : UpdateState δ}

theorem matchesFile_iff {file : UpdateFile} {expected : Fingerprint δ} :
    s.matchesFile digest file expected = true ↔ FileIs digest s file expected := by
  unfold matchesFile FileIs
  rw [Option.any_eq_true]
  constructor
  · rintro ⟨bytes, hbytes, hsame⟩
    exact ⟨bytes, hbytes, beq_iff_eq.mp hsame⟩
  · rintro ⟨bytes, hbytes, hsame⟩
    exact ⟨bytes, hbytes, beq_iff_eq.mpr hsame⟩

theorem meets_checkMatches {failing : Prop} {Q : Ending → UpdateState δ → Prop}
    {rest handler : Program (UpdateState δ)} {file : UpdateFile} {expected : Fingerprint δ}
    (hs : Q .crashed s) (hrest : rest.MeetsIf failing Q s) (hhandler : handler.MeetsIf failing Q s) :
    (checkMatches digest file expected rest handler).MeetsIf failing Q s := by
  refine ⟨hs, ?_, fun _ => hhandler⟩
  show MeetsIf failing Q (if _ then _ else _) s
  split
  · exact hrest
  · exact hhandler

/-! ## `apply_install_plan` -/

section

variable {plan : InstallPlan δ} {before after : Bytes} {s' : UpdateState δ}

theorem rollBack_meets (h : Applying s plan before after s')
    (hbackup : s'.files (.backup plan.id) = some before) :
    (rollBack digest plan).MeetsIf True (InProgress s plan before after) s' := by
  have hrestored := h.write hbackup (.inl rfl)
  refine meets_atomicCopy hbackup h hrestored ?_ (fun _ => raiseWith_meets h (by simp))
    fun _ => raiseWith_meets hrestored (by simp)
  refine ⟨hrestored, ?_, fun _ => raiseWith_meets hrestored (by simp)⟩
  show MeetsIf True _ (if _ then _ else _) _
  split
  · exact raiseWith_meets hrestored (by simp)
  · exact raiseWith_meets hrestored (by simp)

theorem install_meets (h : Applying s plan before after s')
    (hbackup : s'.files (.backup plan.id) = some before)
    (hstaged : s'.files (.staged plan.staged) = some after) :
    (install digest plan).MeetsIf True (InProgress s plan before after) s' := by
  have hreplaced := h.write hbackup (.inr rfl)
  have hbackup' : (s'.writeFile (.executable plan.target) after).files (.backup plan.id) = some before := by
    rw [writeFile_other _ (by simp)]
    exact hbackup
  have hrollBack : (rollBack digest plan).MeetsIf True (InProgress s plan before after)
      (s'.writeFile (.executable plan.target) after) := rollBack_meets hreplaced hbackup'
  refine meets_atomicCopy hstaged h hreplaced ?_ (fun _ => rollBack_meets h hbackup) fun _ => hrollBack
  refine meets_checkMatches hreplaced ?_ hrollBack
  refine ⟨hreplaced, ?_, fun _ => hrollBack⟩
  refine meets_checkMatches hreplaced ?_ hrollBack
  have hinstalled : Applying s plan before after
      ((s'.writeFile (.executable plan.target) after).setStatus plan.id .installed) :=
    hreplaced.setStatus (by simp)
  refine meets_writeStatus hreplaced hinstalled ?_ (fun _ => hrollBack)
    fun _ => rollBack_meets hinstalled hbackup'
  exact ⟨hinstalled, hinstalled.unstage plan.staged, fun _ => hinstalled⟩

theorem replaceTarget_meets (h : Applying s plan before after s')
    (htarget : s'.files (.executable plan.target) = some before)
    (hstaged : s'.files (.staged plan.staged) = some after) :
    (replaceTarget digest plan).MeetsIf True (InProgress s plan before after) s' := by
  have hsaved := h.backUp htarget
  refine meets_atomicCopy htarget h hsaved ?_ (fun _ => raiseWith_meets h (by simp))
    fun _ => raiseWith_meets hsaved (by simp)
  refine meets_checkMatches hsaved ?_ (raiseWith_meets hsaved (by simp))
  refine install_meets hsaved (writeFile_self _ _) ?_
  rw [writeFile_other _ (by simp)]
  exact hstaged

end

/-- The target after an application: as it was, or the verified update in the place of the verified old
program. -/
def Installs (digest : Bytes → δ) (s : UpdateState δ) (plan : InstallPlan δ) (s' : UpdateState δ) : Prop :=
  ∃ before after, s.files (.executable plan.target) = some before ∧ fingerprint digest before = plan.old ∧
    s.files (.staged plan.staged) = some after ∧ fingerprint digest after = plan.new ∧
      s'.files (.executable plan.target) = some after

theorem applyInstallPlan_meets (h : UpdateInvariant digest s) (planId : Nat)
    (happlicable : ∀ plan ∈ s.plans, plan.id = planId → plan.status = .pending →
      FileIs digest s (.executable plan.target) plan.old → FileIs digest s (.staged plan.staged) plan.new →
        Applicable s plan) :
    (applyInstallPlan digest planId).MeetsIf True (fun _ s' => UpdateInvariant digest s' ∧
      ∀ name, s'.files (.executable name) = s.files (.executable name) ∨
        ∃ plan ∈ s.plans, plan.id = planId ∧ plan.target = name ∧ Installs digest s plan s') s := by
  have hsame : UpdateInvariant digest s ∧ ∀ name,
      s.files (.executable name) = s.files (.executable name) ∨
        ∃ plan ∈ s.plans, plan.id = planId ∧ plan.target = name ∧ Installs digest s plan s :=
    ⟨h, fun _ => .inl rfl⟩
  refine ⟨hsame, ?_, fun _ => hsame⟩
  dsimp only [id_eq]
  split
  · exact hsame
  · next plan hplan =>
    have hmem : plan ∈ s.plans := List.mem_of_find?_eq_some hplan
    have hid : plan.id = planId := by simpa using List.find?_some hplan
    split
    · exact hsame
    · next hchecks =>
      simp only [Bool.or_eq_true, Bool.not_eq_true', bne_iff_ne, not_or, Bool.not_eq_false,
        not_not] at hchecks
      obtain ⟨⟨⟨_, hpending⟩, hold⟩, hnew⟩ := hchecks
      have happlies := happlicable plan hmem hid hpending (matchesFile_iff.mp hold)
        (matchesFile_iff.mp hnew)
      obtain ⟨before, hbefore, hbeforeOld⟩ := matchesFile_iff.mp hold
      obtain ⟨after, hafter, hafterNew⟩ := matchesFile_iff.mp hnew
      -- what an application in progress leaves is sound
      have hprogress : ∀ s', Applying s plan before after s' → UpdateInvariant digest s' ∧
          ∀ name, s'.files (.executable name) = s.files (.executable name) ∨
            ∃ plan ∈ s.plans, plan.id = planId ∧ plan.target = name ∧ Installs digest s plan s' := by
        intro s' happlying
        refine ⟨happlying.invariant h hmem hpending hbefore hbeforeOld hafterNew happlies, ?_⟩
        intro name
        by_cases hname : name = plan.target
        · rcases happlying.target with hkept | ⟨hreplaced, _⟩
          · rw [hname, hkept, hbefore]
            exact .inl rfl
          · exact .inr ⟨plan, hmem, hid, hname.symm, before, after, hbefore, hbeforeOld, hafter,
              hafterNew, hreplaced⟩
        · exact .inl (happlying.executables name hname)
      have hstarted : Applying s plan before after (s.setStatus plan.id .replacing) :=
        .start hbefore (by simp)
      refine meets_writeStatus hsame (hprogress _ hstarted) ?_ (fun _ => hsame)
        fun _ => hprogress _ hstarted
      exact Program.MeetsIf.mono (replaceTarget_meets hstarted hbefore hafter) fun _ s' => hprogress s'

/-! ## `reconcile_install_plans` -/

/-- **One turn of the loop.** -/
theorem Reconciling.plan_meets {name : String} {planId : Nat} {left : List Nat} {s' : UpdateState δ}
    (h : Reconciling digest s name (planId :: left) s') {failing : Prop} {rest : Program (UpdateState δ)}
    (hrest : ∀ s', Reconciling digest s name left s' →
      rest.MeetsIf failing (Started digest s name failing) s') :
    (reconcilePlan digest name planId rest).MeetsIf failing (Started digest s name failing) s' := by
  refine ⟨h.crashed failing, ?_, h.raised⟩
  dsimp only [id_eq]
  obtain ⟨plan, hmem, hid⟩ := h.present planId List.mem_cons_self
  have hfind : s'.plan planId = some plan := by
    rw [← hid]
    exact h.invariant.planIds.unique.find?_eq hmem
  have honly : ∀ p ∈ s'.plans, p.id = planId → p = plan :=
    fun p hp hpid => h.invariant.planIds.unique.eq hp hmem (hpid.trans hid.symm)
  rw [hfind]
  dsimp only
  rw [if_neg (by simp [h.invariant.loads plan hmem])]
  split
  · next hother =>
    refine hrest s' (h.skip fun p hp hpid hname => ?_)
    rw [honly p hp hpid] at hname
    exact absurd hname hother
  · next hname =>
    rw [not_not] at hname
    split
    · next hresolved =>
      refine hrest s' (h.skip fun p hp hpid _ => ?_)
      rw [honly p hp hpid]
      simpa using hresolved
    · next hinterrupted =>
      rw [Bool.not_eq_true', Bool.not_eq_false] at hinterrupted
      rw [hid]
      split
      · exact ⟨h.crashed failing, (h.unstage plan.staged).write_meets (by simp) rfl hrest,
          fun _ => h.write_meets (by simp) rfl hrest⟩
      · next hnotNew =>
        split
        · exact h.write_meets (by simp) rfl hrest
        · next hnotOld =>
          rcases h.invariant.known plan hmem hinterrupted with hold | hnew
          · rw [hname] at hold
            exact absurd (matchesFile_iff.mpr hold) hnotOld
          · rw [hname] at hnew
            exact absurd (matchesFile_iff.mpr hnew) hnotNew

/-- The loop, by induction on the plans it has before it. -/
theorem reconcilePlans_meets {name : String} {failing : Prop} (left : List Nat) :
    ∀ s', Reconciling digest s name left s' →
      (reconcilePlans digest name left).MeetsIf failing (Started digest s name failing) s' := by
  induction left with
  | nil =>
    intro s' h
    refine ⟨⟨h.invariant, h.programs⟩, nofun, fun _ plan hplan hname => ?_⟩
    rw [← Bool.not_eq_true]
    intro hinterrupted
    simpa using h.pending plan hplan hname hinterrupted
  | cons planId left ih =>
    intro s' h
    exact h.plan_meets ih

theorem reconcileInstallPlans_meets (h : UpdateInvariant digest s) {rank : Nat → Nat} {name : String}
    (hlooked : LookedAt rank s name) (failing : Prop)
    (hmissing : (s.files (.executable name)).isNone → failing) :
    (reconcileInstallPlans digest rank name).MeetsIf failing (Started digest s name failing) s := by
  have hstart : Reconciling digest s name (((plansByName rank s.plans).take 100).map (·.id)) s := by
    refine ⟨h, fun _ => rfl, fun planId hid => ?_, hlooked⟩
    obtain ⟨plan, hplan, rfl⟩ := List.mem_map.mp hid
    exact ⟨plan, mem_plansByName.mp (List.mem_of_mem_take hplan), rfl⟩
  refine ⟨hstart.crashed failing, ?_, hstart.raised⟩
  show MeetsIf failing _ (if _ then _ else if _ then _ else _) s
  split
  · next hempty =>
    refine ⟨⟨h, fun _ => rfl⟩, nofun, fun _ plan hplan => ?_⟩
    rw [List.isEmpty_iff] at hempty
    rw [hempty] at hplan
    simp at hplan
  · split
    · next hnone => exact hstart.raised (hmissing hnone)
    · exact reconcilePlans_meets _ s hstart

/-! ## Calls -/

variable (digest)

/-- The calls that leave no interrupted plan behind its target: a plan is made of programs that are not
empty, it is applied over another interrupted plan only to one of the two programs of that one, and a start
looks at all interrupted plans of its executable. -/
def soundUpdate (rank : Nat → Nat) (s : UpdateState δ) (call : UpdateCall) : Bool :=
  match call.op with
  | .stage _ _ => true
  | .create executable staged originalPid =>
    match s.files (.executable executable), s.files (.staged staged) with
    | some current, some update => 1 ≤ current.length && 1 ≤ update.length && 0 ≤ originalPid
    | _, _ => true
  | .apply planId =>
    (s.plan planId).all fun plan =>
      plan.status != .pending || !s.matchesFile digest (.executable plan.target) plan.old ||
        !s.matchesFile digest (.staged plan.staged) plan.new ||
          (plan.old != plan.new && s.plans.all fun other =>
            other.id == plan.id || other.target != plan.target || !other.status.interrupted ||
              plan.new == other.old || plan.new == other.new)
  | .startUp executable =>
    s.plans.all fun plan =>
      plan.target != executable || !plan.status.interrupted ||
        (((plansByName rank s.plans).take 100).map (·.id)).contains plan.id

/-- **What a call leaves.** An executable is as it was, or it is the verified update of the plan that is
applied, in the place of the program that the plan verified. When it is the update of a plan in the status
`replacing`, the old program has a rollback copy. When the start of an agent returns, no plan of its
executable is interrupted, and unless one of its own steps fails it does not raise. -/
structure UpdateSound (rank : Nat → Nat) (s : UpdateState δ) (call : UpdateCall) : Prop where
  program : ∀ name, (call.run digest rank s).1.files (.executable name) = s.files (.executable name) ∨
    ∃ plan ∈ s.plans, call.op = .apply plan.id ∧ plan.target = name ∧
      Installs digest s plan (call.run digest rank s).1
  backup : ∀ plan ∈ (call.run digest rank s).1.plans, plan.status = .replacing →
    FileIs digest (call.run digest rank s).1 (.executable plan.target) plan.new →
      BackedUp digest (call.run digest rank s).1 plan.old
  resolved : ∀ name, call.op = .startUp name → (call.run digest rank s).2 = .returned →
    ∀ plan ∈ (call.run digest rank s).1.plans, plan.target = name → plan.status.interrupted = false
  starts : ∀ name, call.op = .startUp name → (s.files (.executable name)).isSome →
    Fate.fails ∉ call.fates → (call.run digest rank s).2 ≠ .raised

variable {digest}

section

variable {rank : Nat → Nat} {call : UpdateCall}

theorem lookedAt_of_sound {name : String} {fates : List Fate}
    (hsound : soundUpdate digest rank s ⟨.startUp name, fates⟩) : LookedAt rank s name := by
  intro plan hplan hname hinterrupted
  have hlooked := List.all_eq_true.mp hsound plan hplan
  rw [hname, hinterrupted] at hlooked
  simpa using hlooked

/-- What a call of each kind meets. -/
theorem call_meets (h : UpdateInvariant digest s) (hsound : soundUpdate digest rank s call) :
    UpdateInvariant digest (call.run digest rank s).1 ∧
      ∀ name, (call.run digest rank s).1.files (.executable name) = s.files (.executable name) ∨
        ∃ plan ∈ s.plans, call.op = .apply plan.id ∧ plan.target = name ∧
          Installs digest s plan (call.run digest rank s).1 := by
  obtain ⟨op, fates⟩ := call
  cases op with
  | stage name bytes =>
    have hs : KeepsPrograms digest s .crashed s := ⟨h, fun _ => rfl⟩
    have hstaged : KeepsPrograms digest s .crashed (s.writeFile (.staged name) bytes) :=
      ⟨h.writeFile bytes (by simp) (by simp), fun _ => writeFile_other bytes (by simp)⟩
    have hmeets : (attempt (UpdateState.writeFile · (.staged name) bytes) fun _ => .done).MeetsIf True
        (KeepsPrograms digest s) s := ⟨hs, hstaged, fun _ => hs⟩
    obtain ⟨hinvariant, hprograms⟩ := exec_meetsIf hmeets fates fun _ => trivial
    exact ⟨hinvariant, fun name => .inl (hprograms name)⟩
  | create executable staged originalPid =>
    have hmeets : (createInstallPlan digest executable staged originalPid).MeetsIf True
        (KeepsPrograms digest s) s := by
      refine createInstallPlan_meets h fun current update hcurrent hupdate => ?_
      unfold soundUpdate at hsound
      simpa [hcurrent, hupdate, and_assoc] using hsound
    obtain ⟨hinvariant, hprograms⟩ := exec_meetsIf hmeets fates fun _ => trivial
    exact ⟨hinvariant, fun name => .inl (hprograms name)⟩
  | apply planId =>
    have hmeets := applyInstallPlan_meets h planId fun plan hplan hid hpending hold hnew => by
      have hfind : s.plan planId = some plan := by
        rw [← hid]
        exact h.planIds.unique.find?_eq hplan
      unfold soundUpdate at hsound
      simp only [hfind, Option.all_some, hpending, matchesFile_iff.mpr hold, matchesFile_iff.mpr hnew,
        bne_self_eq_false, Bool.not_true, Bool.false_or, Bool.and_eq_true, bne_iff_ne,
        List.all_eq_true] at hsound
      refine ⟨hsound.1, fun other hother hid htarget hinterrupted => ?_⟩
      simpa [hid, htarget, hinterrupted] using hsound.2 other hother
    obtain ⟨hinvariant, hprograms⟩ := exec_meetsIf hmeets fates fun _ => trivial
    refine ⟨hinvariant, fun name => (hprograms name).imp id ?_⟩
    rintro ⟨plan, hplan, rfl, hname, hinstalls⟩
    exact ⟨plan, hplan, rfl, hname, hinstalls⟩
  | startUp name =>
    have hmeets := reconcileInstallPlans_meets h (lookedAt_of_sound hsound) True fun _ => trivial
    obtain ⟨⟨hinvariant, hprograms⟩, _⟩ := exec_meetsIf hmeets fates fun _ => trivial
    exact ⟨hinvariant, fun name => .inl (hprograms name)⟩

theorem updateSound_of_invariant (h : UpdateInvariant digest s) (hsound : soundUpdate digest rank s call) :
    UpdateSound digest rank s call := by
  obtain ⟨hinvariant, hprograms⟩ := call_meets h hsound
  constructor
  · exact hprograms
  · intro plan hplan hreplacing hnew
    rcases hinvariant.saved plan hplan hreplacing with hold | hbackup
    · -- the target holds the update, so the old program is elsewhere
      obtain ⟨bytes, hbytes, hsameNew⟩ := hnew
      obtain ⟨bytes', hbytes', hsameOld⟩ := hold
      obtain rfl := Option.some.inj (hbytes.symm.trans hbytes')
      exact absurd (hsameOld.symm.trans hsameNew) (hinvariant.changes plan hplan hreplacing)
    · exact hbackup
  · intro name hop hreturned plan hplan hname
    obtain ⟨op, fates⟩ := call
    obtain rfl : op = .startUp name := hop
    have hmeets := reconcileInstallPlans_meets h (lookedAt_of_sound hsound) True fun _ => trivial
    have hstarted := exec_meetsIf hmeets fates fun _ => trivial
    exact hstarted.2.2 hreturned plan hplan hname
  · intro name hop hinstalled hfates hraised
    obtain ⟨op, fates⟩ := call
    obtain rfl : op = .startUp name := hop
    have hmeets := reconcileInstallPlans_meets h (lookedAt_of_sound hsound) False fun hnone => by
      rw [Option.isNone_iff_eq_none] at hnone
      rw [hnone] at hinstalled
      simp at hinstalled
    exact (exec_meetsIf hmeets fates hfates).2.1 hraised

end

/-- **Updates are safe against failures and crashes.** In every run of calls that leave no interrupted plan
behind its target, wherever steps fail and the processes crash, every call leaves the programs sound. -/
theorem update_sound (digest : Bytes → δ) (rank : Nat → Nat) (installed : String → Option Bytes)
    (calls : List UpdateCall) (call : UpdateCall)
    (hguard : Guarded (updateStep digest rank) (fun s call => soundUpdate digest rank s call = true)
      (.unplanned installed) (calls ++ [call])) :
    UpdateSound digest rank (Library.run (updateStep digest rank) (.unplanned installed) calls) call := by
  obtain ⟨hcalls, hlast, _⟩ := Library.guarded_append.mp hguard
  refine updateSound_of_invariant ?_ hlast
  refine guarded_invariant (UpdateInvariant digest) (fun s c hs hc => ?_)
    (updateInvariant_unplanned installed) hcalls
  exact (call_meets hs hc).1

end

/-- The program of version 1 is installed as the agent. -/
def versionOne : String → Option Bytes := fun name => if name = "dayfinch-agent" then some [1] else none

/-- An update is staged and planned. -/
def planned (version : UInt8) (name : String) : List UpdateCall :=
  [{ op := .stage name [version] }, { op := .create "dayfinch-agent" name 4711 }]

/-- The helper crashes before it diagnoses the update that it has copied. -/
def crashedInstall : UpdateCall :=
  { op := .apply 0,
    fates := [.succeeds, .succeeds, .succeeds, .succeeds, .succeeds, .succeeds, .succeeds, .succeeds,
      .succeeds, .succeeds, .succeeds, .crashes] }

/-- The agent starts after the crash. -/
theorem update_sound_crashed :
    UpdateSound (fun bytes => bytes) id (Library.run (updateStep (fun bytes => bytes) id)
      (.unplanned versionOne) (planned 2 "v2" ++ [crashedInstall])) { op := .startUp "dayfinch-agent" } :=
  update_sound (fun bytes => bytes) id versionOne _ _ (by decide +kernel)

/-! ## A plan that another one has overtaken -/

/-- The helper crashes after the status of its plan; the next update is planned and installed before the
agent starts. -/
def overtaken : List UpdateCall :=
  planned 2 "v2" ++ [{ op := .apply 0, fates := [.succeeds, .succeeds, .succeeds, .crashes] }] ++
    planned 3 "v3" ++ [{ op := .apply 1 }]

/-- The agent of version 3 does not start, since the target is neither program of the first plan. -/
theorem update_stops_agent :
    ¬ ∀ (digest : Bytes → Bytes) (rank : Nat → Nat) (installed : String → Option Bytes)
      (calls : List UpdateCall) (call : UpdateCall),
      UpdateSound digest rank (Library.run (updateStep digest rank) (.unplanned installed) calls) call := by
  intro h
  have hsound := h (fun bytes => bytes) id versionOne overtaken { op := .startUp "dayfinch-agent" }
  exact hsound.starts "dayfinch-agent" rfl (by decide +kernel) (by decide) (by decide +kernel)

end Dayfinch
