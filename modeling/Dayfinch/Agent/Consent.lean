/-
# Dayfinch.Agent.Consent -- whose copy of a policy a member's consent is bound to

An automatic tracking policy is assigned to members, and each member accepts or declines it in the agent.
Administrators create, edit and delete policies; an edit re-creates the assignments as pending. An agent
fetches the policy of its owner, asks about it when it is pending, and sends the answer. The answer carries
the policy's id and nothing else, and the server matches it by that id, so an answer that was given before an
edit and arrives after it is taken as consent to the policy as it was edited.

Each call of the server is one transaction. An edit locks the policy's row and replaces its assignments, so
two calls that meet either come one after the other or one of them fails and changes nothing; a call that
fails is a run without it, and its request is dropped. `fetched` and `recorded` are not columns: they keep
what an agent was shown and what the server took as an answer.
-/
import Dayfinch.Agent.Automatic
import Dayfinch.Library.Run
import Dayfinch.Library.Text
import Dayfinch.Work.Sync

namespace Dayfinch

open Library

/-! ## Tables -/

/-- What a policy may do: its rule, the project it starts, whether it waits and when. -/
structure PolicyTerms where
  ruleType : RuleType
  projectId : Nat
  waitForActivity : Bool
  schedule : List (String × List Interval)
  deriving DecidableEq, Repr

/-- `automatic_tracking_policies`. -/
structure TrackingPolicy where
  id : Nat
  name : String
  terms : PolicyTerms
  enabled : Bool
  updatedAt : Int
  deriving DecidableEq, Repr

/-- `automatic_tracking_assignments`. -/
structure PolicyAssignment where
  policyId : Nat
  userId : Nat
  consentStatus : ConsentStatus
  assignedAt : Int
  respondedAt : Option Int
  deriving DecidableEq, Repr

/-- `shifts`. -/
structure Shift where
  userId : Nat
  startsAt : Int
  endsAt : Int
  published : Bool
  projectId : Option Nat
  deriving DecidableEq, Repr

/-- The policies with the tables that they refer to. -/
structure PolicyTables where
  directory : Database
  shifts : List Shift := []
  policies : List TrackingPolicy := []
  assignments : List PolicyAssignment := []
  nextId : Nat := 0
  deriving DecidableEq, Repr

/-- The values of the form, as `_automatic_policy_values` passes them on. A rule type that the form does not
know is none. -/
structure PolicyValues where
  name : String
  ruleType : Option RuleType
  projectId : Nat
  waitForActivity : Bool
  schedule : List (String × List Interval)
  userIds : List Nat
  deriving DecidableEq, Repr

/-- The policy of a member as the configuration carries it. -/
structure PolicyCopy where
  id : Nat
  name : String
  terms : PolicyTerms
  consentStatus : ConsentStatus
  updatedAt : Int
  shiftWindows : List (Int × Int × Nat)
  deriving DecidableEq, Repr

/-! ## The calls of the server -/

namespace PolicyValues

def cleanName (v : PolicyValues) : String := Text.truncate 120 (Text.strip v.name)

/-- `list(dict.fromkeys(user_ids))`. -/
def assigned (v : PolicyValues) : List Nat := v.userIds.eraseDups

/-- The checks of the values, and the terms that they stand for. -/
def check (v : PolicyValues) : Except Error PolicyTerms :=
  match v.ruleType with
  | none => .error (.valueError "Invalid automatic tracking rule")
  | some ruleType => do
    raiseIf (v.cleanName = "") "Policy name is required"
    raiseIf (v.assigned = []) "Assign at least one member"
    raiseIf (ruleType = .fixedSchedule ∧ v.schedule = []) "A fixed schedule needs at least one working day"
    return ⟨ruleType, v.projectId, v.waitForActivity, v.schedule⟩

/-- The row of a pending assignment. -/
def assignment (policyId : Nat) (now : Int) (userId : Nat) : PolicyAssignment :=
  ⟨policyId, userId, .pending, now, none⟩

end PolicyValues

namespace PolicyTables

/-- Whether a user can be assigned a policy of the project. -/
def eligible (s : PolicyTables) (projectId userId : Nat) : Bool :=
  match s.directory.getUserAny userId with
  | none => false
  | some user => user.enabled &&
      (user.role == .admin || user.role == .manager ||
        canTrack (s.directory.projectMemberRole projectId userId))

/-- The checks of the project and the members, and of the name against `uq_automatic_tracking_policy_name`. -/
def checkAssigned (s : PolicyTables) (v : PolicyValues) (others : List TrackingPolicy) : Except Error Unit := do
  raiseIf (((s.directory.getProject v.projectId).map (·.enabled)) ≠ some true) "Starting project is unavailable"
  raiseIf (v.assigned.all (s.eligible v.projectId) = false) "One or more assigned members are unavailable"
  raiseIf (∃ p ∈ others, Text.lower p.name = Text.lower v.cleanName)
    "An automatic tracking policy already uses that name"

/-- `create_automatic_tracking_policy`. -/
def createPolicy (s : PolicyTables) (v : PolicyValues) (now : Int) : Except Error PolicyTables := do
  let terms ← v.check
  s.checkAssigned v s.policies
  return { s with
    policies := s.policies ++ [⟨s.nextId, v.cleanName, terms, true, now⟩]
    assignments := s.assignments.filter (fun a => !v.assigned.contains a.userId) ++
      v.assigned.map (PolicyValues.assignment s.nextId now)
    nextId := s.nextId + 1 }

/-- `update_automatic_tracking_policy`; the flag says whether there is such a policy. -/
def updatePolicy (s : PolicyTables) (policyId : Nat) (v : PolicyValues) (now : Int) :
    Except Error (PolicyTables × Bool) := do
  let terms ← v.check
  if s.policies.any (·.id == policyId) = false then
    return (s, false)
  s.checkAssigned v (s.policies.filter (·.id != policyId))
  return ({ s with
    policies := updateWhere (·.id == policyId)
      (fun p => { p with name := v.cleanName, terms := terms, updatedAt := now }) s.policies
    assignments := (s.assignments.filter (·.policyId != policyId)).filter
        (fun a => !v.assigned.contains a.userId) ++
      v.assigned.map (PolicyValues.assignment policyId now) }, true)

/-- `delete_automatic_tracking_policy`; the assignments go with the policy. -/
def deletePolicy (s : PolicyTables) (policyId : Nat) : PolicyTables :=
  { s with
    policies := s.policies.filter (·.id != policyId)
    assignments := s.assignments.filter (·.policyId != policyId) }

/-- The published shifts that a copy carries. -/
def shiftWindows (s : PolicyTables) (userId projectId : Nat) (now : Int) : List (Int × Int × Nat) :=
  ((orderBy (·.startsAt) (fun _ => 0) (s.shifts.filter fun shift =>
    shift.userId == userId && shift.published && decide (now - days 1 ≤ shift.endsAt) &&
      decide (shift.startsAt ≤ now + days 14))).take 100).map fun shift =>
    (shift.startsAt, shift.endsAt, shift.projectId.getD projectId)

/-- `automatic_tracking_for_user`. -/
def automaticTrackingForUser (s : PolicyTables) (userId : Nat) (now : Int) : Option PolicyCopy :=
  match s.assignments.find? (·.userId == userId) with
  | none => none
  | some a =>
    match s.policies.find? fun p => p.id == a.policyId && p.enabled with
    | none => none
    | some p =>
      if (s.directory.getProject p.terms.projectId).map (·.enabled) = some true then
        some ⟨p.id, p.name, p.terms, a.consentStatus, p.updatedAt,
          if p.terms.ruleType = .shifts then s.shiftWindows userId p.terms.projectId now else []⟩
      else none

/-- `respond_to_automatic_tracking_policy`; the flag says whether the member has that policy. -/
def respond (s : PolicyTables) (userId policyId : Nat) (accepted : Bool) (now : Int) : PolicyTables × Bool :=
  let named := fun a : PolicyAssignment => a.userId == userId && a.policyId == policyId
  ({ s with
    assignments := updateWhere named
      (fun a => { a with
        consentStatus := if accepted then .accepted else .declined
        respondedAt := some now }) s.assignments },
    s.assignments.any named)

/-- The row of a policy. -/
def getPolicy (s : PolicyTables) (policyId : Nat) : Option TrackingPolicy :=
  s.policies.find? (·.id == policyId)

end PolicyTables

/-! ## The agents and what is under way -/

/-- The agent of a device. `arriving` is the configuration that the server sent and the agent has yet to
read, `asking` the policy that the dialog is about until its call has ended, and `reply` the answer of the
server to that call: the policy, what was answered, and whether the server knew the policy. -/
structure MemberAgent where
  ownerUserId : Option Nat
  arriving : Option (Option PolicyCopy) := none
  automaticPolicy : Option PolicyCopy := none
  asking : Option Nat := none
  reply : Option (Nat × Bool × Bool) := none
  fetched : List PolicyCopy := []
  deriving DecidableEq, Repr

/-- A consent request of an agent, with the copy of that policy that the agent fetched last. -/
structure ConsentRequest where
  agent : Nat
  policyId : Nat
  accepted : Bool
  copy : PolicyCopy
  deriving DecidableEq, Repr

/-- The tables, the agents, the requests under way, and the responses that the server recorded with the
member whose assignment they changed, the newest first. -/
structure ConsentSystem where
  tables : PolicyTables
  agents : List MemberAgent
  sent : List ConsentRequest := []
  recorded : List (Nat × ConsentRequest) := []
  deriving DecidableEq, Repr

namespace MemberAgent

/-- `pending_automatic_policy`. -/
def pendingAutomaticPolicy (a : MemberAgent) : Option PolicyCopy :=
  a.automaticPolicy.filter (·.consentStatus == .pending)

/-- The agent reads the configuration that has arrived. -/
def receive (a : MemberAgent) : MemberAgent :=
  match a.arriving with
  | none => a
  | some automatic =>
    { a with
      arriving := none
      automaticPolicy := automatic
      fetched := automatic.toList ++ a.fetched }

/-- The window asks about a pending policy, one at a time. -/
def ask (a : MemberAgent) : MemberAgent :=
  match a.asking, a.pendingAutomaticPolicy with
  | none, some policy => { a with asking := some policy.id }
  | _, _ => a

/-- `respond_automatic_policy` has its response: a refused request raises. -/
def replied (a : MemberAgent) : MemberAgent :=
  match a.reply with
  | none => a
  | some (policyId, accepted, known) =>
    { a with
      asking := none
      reply := none
      automaticPolicy := a.automaticPolicy.map fun policy =>
        if known && policy.id == policyId then
          { policy with consentStatus := if accepted then .accepted else .declined }
        else policy }

/-- The call raises without a response. -/
def giveUp (a : MemberAgent) : MemberAgent := { a with asking := none, reply := none }

end MemberAgent

/-- One step. `office` is any change of users, projects and shifts. -/
inductive ConsentOp
  | office (directory : Database) (shifts : List Shift)
  | create (values : PolicyValues) (now : Int)
  | update (policyId : Nat) (values : PolicyValues) (now : Int)
  | delete (policyId : Nat)
  | configuration (agent : Nat) (now : Int)
  | receive (agent : Nat)
  | ask (agent : Nat)
  | answer (agent : Nat) (accepted : Bool)
  | deliver (position : Nat) (now : Int)
  | drop (position : Nat)
  | replied (agent : Nat)
  | giveUp (agent : Nat)
  deriving DecidableEq, Repr

namespace ConsentSystem

def onAgent (s : ConsentSystem) (k : Nat) (f : MemberAgent → MemberAgent) : ConsentSystem :=
  { s with agents := s.agents.modify k f }

/-- `GET /configuration`: the server's part of the policy. -/
def configuration (s : ConsentSystem) (now : Int) (a : MemberAgent) : MemberAgent :=
  let owner := a.ownerUserId.bind s.tables.directory.getUser
  { a with arriving := some (owner.bind fun user => s.tables.automaticTrackingForUser user.id now) }

/-- The member answers the dialog, and the agent sends the policy's id and the answer. -/
def answer (s : ConsentSystem) (k : Nat) (accepted : Bool) : ConsentSystem :=
  match s.agents[k]? with
  | none => s
  | some a =>
    match a.asking with
    | none => s
    | some policyId =>
      -- a dialog is about a policy that was fetched
      match a.fetched.find? (·.id == policyId) with
      | none => s
      | some copy => { s with sent := s.sent ++ [⟨k, policyId, accepted, copy⟩] }

/-- The member whose device sent the request. -/
def member (s : ConsentSystem) (r : ConsentRequest) : Option Nat := s.agents[r.agent]?.bind (·.ownerUserId)

/-- The response reaches the agent if its window still waits for it. -/
def respondTo (s : ConsentSystem) (r : ConsentRequest) (known : Bool) : ConsentSystem :=
  s.onAgent r.agent fun a =>
    if a.asking = some r.policyId then { a with reply := some (r.policyId, r.accepted, known) } else a

/-- `POST /automatic-tracking/consent`. -/
def automaticTrackingConsent (s : ConsentSystem) (r : ConsentRequest) (now : Int) : ConsentSystem :=
  match s.member r with
  | none => s.respondTo r false
  | some userId =>
    let (tables, known) := s.tables.respond userId r.policyId r.accepted now
    { s with
      tables := tables
      recorded := if known then (userId, r) :: s.recorded else s.recorded }.respondTo r known

/-- The tables after a call; a call that raises is rolled back. -/
def commitTables (s : ConsentSystem) (result : Except Error PolicyTables) : ConsentSystem :=
  match result with
  | .ok tables => { s with tables := tables }
  | .error _ => s

def step (s : ConsentSystem) : ConsentOp → ConsentSystem
  | .office directory shifts => { s with tables := { s.tables with directory := directory, shifts := shifts } }
  | .create values now => s.commitTables (s.tables.createPolicy values now)
  | .update policyId values now => s.commitTables ((s.tables.updatePolicy policyId values now).map (·.1))
  | .delete policyId => { s with tables := s.tables.deletePolicy policyId }
  | .configuration k now => s.onAgent k (s.configuration now)
  | .receive k => s.onAgent k MemberAgent.receive
  | .ask k => s.onAgent k MemberAgent.ask
  | .answer k accepted => s.answer k accepted
  | .deliver i now =>
    match s.sent[i]? with
    | none => s
    | some r => { s with sent := s.sent.eraseIdx i }.automaticTrackingConsent r now
  | .drop i => { s with sent := s.sent.eraseIdx i }
  | .replied k => s.onAgent k MemberAgent.replied
  | .giveUp k => s.onAgent k MemberAgent.giveUp

/-- No policies yet, and an agent for each device. -/
def start (directory : Database) (shifts : List Shift) (owners : List (Option Nat)) : ConsentSystem :=
  { tables := { directory := directory, shifts := shifts }
    agents := owners.map fun owner => { ownerUserId := owner } }

/-! ## What consent is bound to -/

/-- The last response of a member that the server recorded. -/
def lastResponse (s : ConsentSystem) (userId : Nat) : Option ConsentRequest :=
  (s.recorded.find? (·.1 == userId)).map (·.2)

/-- The copy of the request is one of that policy that its agent fetched. -/
def Fetched (s : ConsentSystem) (r : ConsentRequest) : Prop :=
  r.copy.id = r.policyId ∧ ∃ a ∈ s.agents[r.agent]?, r.copy ∈ a.fetched

/-- The response came from an agent of the member and answers a copy that this agent fetched. -/
def Shown (s : ConsentSystem) (userId : Nat) (r : ConsentRequest) : Prop :=
  s.member r = some userId ∧ s.Fetched r

/-- The last response of the member accepted this policy, and the copy that it answers has the terms that
are stored. -/
def BoundTo (s : ConsentSystem) (a : PolicyAssignment) : Prop :=
  ∃ r ∈ s.lastResponse a.userId, r.accepted = true ∧ r.policyId = a.policyId ∧ s.Shown a.userId r ∧
    ∃ p ∈ s.tables.getPolicy a.policyId, r.copy.terms = p.terms

/-- Every accepted assignment is bound to what the member was shown. -/
def ConsentBound (s : ConsentSystem) : Prop :=
  ∀ a ∈ s.tables.assignments, a.consentStatus = .accepted → s.BoundTo a

instance (s : ConsentSystem) (r : ConsentRequest) : Decidable (s.Fetched r) :=
  inferInstanceAs (Decidable (_ ∧ ∃ a ∈ s.agents[r.agent]?, _))

instance (s : ConsentSystem) (userId : Nat) (r : ConsentRequest) : Decidable (s.Shown userId r) :=
  inferInstanceAs (Decidable (_ ∧ _))

instance (s : ConsentSystem) (a : PolicyAssignment) : Decidable (s.BoundTo a) :=
  inferInstanceAs (Decidable (∃ r ∈ s.lastResponse a.userId, _))

instance (s : ConsentSystem) : Decidable s.ConsentBound :=
  inferInstanceAs (Decidable (∀ a ∈ s.tables.assignments, _))

/-- An acceptance that finds its assignment finds the policy with the terms of the copy that it answers. -/
def UpToDate (s : ConsentSystem) (r : ConsentRequest) : Prop :=
  r.accepted = true → (∃ a ∈ s.tables.assignments, some a.userId = s.member r ∧ a.policyId = r.policyId) →
    ∃ p ∈ s.tables.getPolicy r.policyId, r.copy.terms = p.terms

instance (s : ConsentSystem) (r : ConsentRequest) : Decidable (s.UpToDate r) :=
  inferInstanceAs (Decidable (_ → _ → _))

/-- No edit overtakes an acceptance: what is delivered was given for the terms that are stored. -/
def NotOvertaken (s : ConsentSystem) : ConsentOp → Prop
  | .deliver i _ => ∀ r ∈ s.sent[i]?, s.UpToDate r
  | _ => True

instance (s : ConsentSystem) (op : ConsentOp) : Decidable (s.NotOvertaken op) := by
  cases op <;> unfold NotOvertaken <;> infer_instance

end ConsentSystem

/-! ## What the calls do to the tables -/

/-- A list without repetitions of users takes over: who is named anew has one row, and the others keep theirs. -/
theorem assignments_unique {rows kept : List PolicyAssignment} (h : UniqueKey (·.userId) rows)
    (hsub : kept.Sublist rows) (v : PolicyValues) (policyId : Nat) (now : Int) :
    UniqueKey (·.userId) (kept.filter (fun a => !v.assigned.contains a.userId) ++
      v.assigned.map (PolicyValues.assignment policyId now)) := by
  have hkept : UniqueKey (·.userId) (kept.filter fun a => !v.assigned.contains a.userId) :=
    (h.sublist hsub).sublist List.filter_sublist
  have hnew : (v.assigned.map (PolicyValues.assignment policyId now)).map (·.userId) = v.assigned := by
    rw [List.map_map]
    exact List.map_id _
  unfold UniqueKey
  rw [List.map_append, hnew, List.nodup_append]
  refine ⟨hkept, nodup_eraseDups _, ?_⟩
  intro u hu u' hu' heq
  obtain ⟨a, ha, rfl⟩ := List.mem_map.mp hu
  have hnot := (List.mem_filter.mp ha).2
  rw [← heq] at hu'
  simp [hu'] at hnot

/-- What a call of an administrator leaves: the rows of members are unique, and an accepted assignment is an
old one whose policy is as it was. -/
structure PolicyTables.Kept (t t' : PolicyTables) : Prop where
  unique : UniqueKey (·.userId) t.assignments → UniqueKey (·.userId) t'.assignments
  accepted : ∀ a ∈ t'.assignments, a.consentStatus = .accepted →
    a ∈ t.assignments ∧ ∀ p ∈ t.getPolicy a.policyId, p ∈ t'.getPolicy a.policyId

namespace PolicyTables.Kept

theorem refl (t : PolicyTables) : PolicyTables.Kept t t := ⟨fun h => h, fun _ ha _ => ⟨ha, fun _ hp => hp⟩⟩

/-- An accepted row of the new assignments is a kept one. -/
theorem mem_kept {kept : List PolicyAssignment} {v : PolicyValues} {policyId : Nat} {now : Int}
    {a : PolicyAssignment}
    (ha : a ∈ kept.filter (fun a => !v.assigned.contains a.userId) ++
      v.assigned.map (PolicyValues.assignment policyId now))
    (hacc : a.consentStatus = .accepted) : a ∈ kept := by
  rcases List.mem_append.mp ha with hold | hnew
  · exact List.mem_of_mem_filter hold
  · obtain ⟨u, _, rfl⟩ := List.mem_map.mp hnew
    exact nomatch hacc

theorem create {t t' : PolicyTables} {v : PolicyValues} {now : Int} (h : t.createPolicy v now = .ok t') :
    PolicyTables.Kept t t' := by
  unfold PolicyTables.createPolicy at h
  obtain ⟨terms, _, h⟩ := bind_eq_ok.mp h
  obtain ⟨_, _, h⟩ := bind_eq_ok.mp h
  obtain rfl := Except.ok.inj h
  refine ⟨fun hunique => assignments_unique hunique (List.Sublist.refl _) v t.nextId now, ?_⟩
  intro a ha hacc
  refine ⟨mem_kept ha hacc, fun p hp => ?_⟩
  exact List.find?_append.trans (by rw [show t.policies.find? _ = some p from hp]; rfl)

theorem update {t t' : PolicyTables} {policyId : Nat} {v : PolicyValues} {now : Int} {known : Bool}
    (h : t.updatePolicy policyId v now = .ok (t', known)) : PolicyTables.Kept t t' := by
  unfold PolicyTables.updatePolicy at h
  obtain ⟨terms, _, h⟩ := bind_eq_ok.mp h
  split at h
  · obtain ⟨rfl, _⟩ := Prod.mk.inj (Except.ok.inj h)
    exact refl t
  obtain ⟨_, _, h⟩ := bind_eq_ok.mp h
  obtain ⟨rfl, _⟩ := Prod.mk.inj (Except.ok.inj h)
  refine ⟨fun hunique => assignments_unique hunique List.filter_sublist v policyId now, ?_⟩
  intro a ha hacc
  obtain ⟨hold, hne⟩ := List.mem_filter.mp (mem_kept ha hacc)
  refine ⟨hold, fun p hp => ?_⟩
  -- the row that the edit writes is another policy's
  have hid : p.id = a.policyId := by simpa using List.find?_some (show t.policies.find? _ = some p from hp)
  have hp' : p.id ≠ policyId := by
    rw [hid]
    simpa using hne
  have hfind := find?_updateWhere (q := fun p : TrackingPolicy => p.id == a.policyId)
    (p := fun p => p.id == policyId)
    (f := fun p => { p with name := v.cleanName, terms := terms, updatedAt := now })
    (fun _ => rfl) t.policies
  rw [show t.policies.find? _ = some p from hp, Option.map_some, if_neg (by simpa using hp')] at hfind
  exact hfind

theorem delete (t : PolicyTables) (policyId : Nat) : PolicyTables.Kept t (t.deletePolicy policyId) := by
  refine ⟨fun hunique => hunique.sublist List.filter_sublist, ?_⟩
  intro a ha _
  obtain ⟨hold, hne⟩ := List.mem_filter.mp ha
  refine ⟨hold, fun p hp => ?_⟩
  show (t.policies.filter (·.id != policyId)).find? _ = some p
  have hsame : ∀ q : TrackingPolicy,
      decide ((q.id != policyId) = true ∧ (q.id == a.policyId) = true) = (q.id == a.policyId) := by
    intro q
    by_cases hq : q.id = a.policyId
    · simpa [hq] using hne
    · simp [hq]
  rw [List.find?_filter, funext hsame]
  exact hp

end PolicyTables.Kept

/-- What a response leaves of an assignment: the member's own row when it names the policy, else the row as
it was. -/
theorem mem_respond {t : PolicyTables} {userId policyId : Nat} {accepted : Bool} {now : Int}
    (hunique : UniqueKey (·.userId) t.assignments) {a : PolicyAssignment}
    (ha : a ∈ (t.respond userId policyId accepted now).1.assignments) :
    (a.userId = userId ∧ a.policyId = policyId ∧ (t.respond userId policyId accepted now).2 = true ∧
      (a.consentStatus = .accepted → accepted = true)) ∨
    (a ∈ t.assignments ∧
      (a.userId = userId → (t.respond userId policyId accepted now).2 = false)) := by
  rcases mem_updateWhere_cases ha with ⟨hold, hnot⟩ | ⟨b, hb, hnamed, rfl⟩
  · refine .inr ⟨hold, fun huser => ?_⟩
    by_contra hknown
    obtain ⟨b, hb, hnamed⟩ := List.any_eq_true.mp (Bool.eq_true_of_not_eq_false hknown)
    have hb' := hnamed
    simp only [Bool.and_eq_true, beq_iff_eq] at hb'
    obtain rfl : a = b := hunique.eq hold hb (huser.trans hb'.1.symm)
    simp [hnot] at hnamed
  · have hb' := hnamed
    simp only [Bool.and_eq_true, beq_iff_eq] at hb'
    refine .inl ⟨hb'.1, hb'.2, List.any_eq_true.mpr ⟨b, hb, hnamed⟩, fun hacc => ?_⟩
    by_contra hdeclined
    simp [hdeclined] at hacc

/-! ## What the agents keep -/

/-- The agent stays its owner's, and remembers what it was shown. -/
def MemberAgent.Keeps (f : MemberAgent → MemberAgent) : Prop :=
  ∀ a, (f a).ownerUserId = a.ownerUserId ∧ ∀ c ∈ a.fetched, c ∈ (f a).fetched

namespace MemberAgent.Keeps

theorem receive : MemberAgent.Keeps MemberAgent.receive := by
  intro a
  unfold MemberAgent.receive
  split
  · exact ⟨rfl, fun _ hc => hc⟩
  · exact ⟨rfl, fun _ hc => List.mem_append_right _ hc⟩

theorem ask : MemberAgent.Keeps MemberAgent.ask := by
  intro a
  unfold MemberAgent.ask
  split <;> exact ⟨rfl, fun _ hc => hc⟩

theorem replied : MemberAgent.Keeps MemberAgent.replied := by
  intro a
  unfold MemberAgent.replied
  split <;> exact ⟨rfl, fun _ hc => hc⟩

theorem giveUp : MemberAgent.Keeps MemberAgent.giveUp := fun _ => ⟨rfl, fun _ hc => hc⟩

end MemberAgent.Keeps

namespace ConsentSystem

theorem member_onAgent (s : ConsentSystem) {f : MemberAgent → MemberAgent} (hf : MemberAgent.Keeps f) (k : Nat)
    (r : ConsentRequest) : (s.onAgent k f).member r = s.member r := by
  show ((s.agents.modify k f)[r.agent]?).bind _ = _
  unfold member
  rw [List.getElem?_modify]
  cases s.agents[r.agent]? with
  | none => rfl
  | some a =>
    by_cases hk : k = r.agent
    · simp [hk, (hf a).1]
    · simp [hk]

theorem Fetched.onAgent {s : ConsentSystem} {r : ConsentRequest} (h : s.Fetched r)
    {f : MemberAgent → MemberAgent} (hf : MemberAgent.Keeps f) (k : Nat) : (s.onAgent k f).Fetched r := by
  obtain ⟨hid, a, ha, hmem⟩ := h
  have hget : (s.agents.modify k f)[r.agent]? = some (if k = r.agent then f a else a) := by
    rw [List.getElem?_modify, show s.agents[r.agent]? = some a from ha]
    by_cases hk : k = r.agent <;> simp [hk]
  refine ⟨hid, _, hget, ?_⟩
  split
  · exact (hf a).2 _ hmem
  · exact hmem

/-- What holds after every run that no edit overtakes: a member has one assignment, every request under way
answers a copy that its agent fetched, and accepted assignments are bound to what was shown. -/
structure Sound (s : ConsentSystem) : Prop where
  unique : UniqueKey (·.userId) s.tables.assignments
  sent : ∀ r ∈ s.sent, s.Fetched r
  bound : s.ConsentBound

namespace Sound

variable {s : ConsentSystem}

theorem start (directory : Database) (shifts : List Shift) (owners : List (Option Nat)) :
    (ConsentSystem.start directory shifts owners).Sound where
  unique := List.nodup_nil
  sent := fun _ hr => (nomatch hr)
  bound := fun _ ha => (nomatch ha)

theorem onAgent (h : s.Sound) {f : MemberAgent → MemberAgent} (hf : MemberAgent.Keeps f) (k : Nat) :
    (s.onAgent k f).Sound where
  unique := h.unique
  sent := fun r hr => (h.sent r hr).onAgent hf k
  bound := by
    intro a ha hacc
    obtain ⟨r, hr, haccepted, hpolicy, ⟨hmember, hfetched⟩, hterms⟩ := h.bound a ha hacc
    exact ⟨r, hr, haccepted, hpolicy, ⟨(s.member_onAgent hf k r).trans hmember, hfetched.onAgent hf k⟩, hterms⟩

theorem tables (h : s.Sound) {t : PolicyTables} (hkept : PolicyTables.Kept s.tables t) :
    ({ s with tables := t } : ConsentSystem).Sound where
  unique := hkept.unique h.unique
  sent := h.sent
  bound := by
    intro a ha hacc
    obtain ⟨hold, hpolicies⟩ := hkept.accepted a ha hacc
    obtain ⟨r, hr, haccepted, hpolicy, hshown, p, hp, hterms⟩ := h.bound a hold hacc
    exact ⟨r, hr, haccepted, hpolicy, hshown, p, hpolicies p hp, hterms⟩

theorem commitTables (h : s.Sound) {result : Except Error PolicyTables}
    (hkept : ∀ t, result = .ok t → PolicyTables.Kept s.tables t) : (s.commitTables result).Sound := by
  cases result with
  | error e => exact h
  | ok t => exact h.tables (hkept t rfl)

theorem requests (h : s.Sound) {sent : List ConsentRequest} (hsent : ∀ r ∈ sent, s.Fetched r) :
    ({ s with sent := sent } : ConsentSystem).Sound where
  unique := h.unique
  sent := hsent
  bound := h.bound

theorem answer (h : s.Sound) (k : Nat) (accepted : Bool) : (s.answer k accepted).Sound := by
  unfold ConsentSystem.answer
  split
  · exact h
  rename_i a ha
  split
  · exact h
  rename_i policyId hasking
  split
  · exact h
  rename_i copy hcopy
  refine h.requests fun r hr => ?_
  rcases List.mem_append.mp hr with hold | hnew
  · exact h.sent r hold
  · obtain rfl := List.mem_singleton.mp hnew
    exact ⟨by simpa using List.find?_some hcopy, a, ha, List.mem_of_find?_eq_some hcopy⟩

theorem respondTo (h : s.Sound) (r : ConsentRequest) (known : Bool) : (s.respondTo r known).Sound := by
  refine h.onAgent (fun a => ?_) r.agent
  split <;> exact ⟨rfl, fun _ hc => hc⟩

/-- A response that is up to date binds the assignment that it accepts, and the member has no other. -/
theorem recorded (h : s.Sound) {r : ConsentRequest} {userId : Nat} (hmember : s.member r = some userId)
    (hfetched : s.Fetched r) (hcurrent : s.UpToDate r) (now : Int) :
    ({ s with
      tables := (s.tables.respond userId r.policyId r.accepted now).1
      recorded := if (s.tables.respond userId r.policyId r.accepted now).2 then (userId, r) :: s.recorded
        else s.recorded } : ConsentSystem).Sound where
  unique := h.unique.updateWhere fun _ => rfl
  sent := h.sent
  bound := by
    intro a ha hacc
    rcases mem_respond h.unique ha with ⟨huser, hpolicy, hknown, haccepted⟩ | ⟨hold, hother⟩
    · have hr : r.accepted = true := haccepted hacc
      obtain ⟨b, hb, hnamed⟩ := List.any_eq_true.mp hknown
      simp only [Bool.and_eq_true, beq_iff_eq] at hnamed
      obtain ⟨p, hp, hterms⟩ := hcurrent hr ⟨b, hb, by rw [hnamed.1, hmember], hnamed.2⟩
      refine ⟨r, ?_, hr, hpolicy.symm, ⟨by rw [huser]; exact hmember, hfetched⟩, p, ?_, hterms⟩
      · simp [lastResponse, hknown, huser]
      · rw [hpolicy]
        exact hp
    · obtain ⟨r', hr', haccepted, hpolicy, hshown, hterms⟩ := h.bound a hold hacc
      refine ⟨r', ?_, haccepted, hpolicy, hshown, hterms⟩
      -- a response that was recorded is another member's
      by_cases hknown : (s.tables.respond userId r.policyId r.accepted now).2 = true
      · have hne : userId ≠ a.userId := by
          intro heq
          rw [hother heq.symm] at hknown
          exact nomatch hknown
        simpa [lastResponse, hknown, hne] using hr'
      · simpa [lastResponse, hknown] using hr'

theorem consent (h : s.Sound) {r : ConsentRequest} (hfetched : s.Fetched r) (hcurrent : s.UpToDate r)
    (now : Int) : (s.automaticTrackingConsent r now).Sound := by
  unfold automaticTrackingConsent
  split
  · exact h.respondTo r false
  · rename_i userId hmember
    exact (h.recorded hmember hfetched hcurrent now).respondTo r _

end Sound

/-- **One step.** -/
theorem Sound.step {s : ConsentSystem} (h : s.Sound) (op : ConsentOp) (hguard : s.NotOvertaken op) :
    (s.step op).Sound := by
  cases op with
  | office directory shifts =>
    exact h.tables ⟨fun hunique => hunique, fun a ha _ => ⟨ha, fun _ hp => hp⟩⟩
  | create values now => exact h.commitTables fun t ht => PolicyTables.Kept.create ht
  | update policyId values now =>
    refine h.commitTables (ensures_map.mpr fun updated hupdate => ?_)
    obtain ⟨t, known⟩ := updated
    exact PolicyTables.Kept.update hupdate
  | delete policyId => exact h.tables (PolicyTables.Kept.delete s.tables policyId)
  | configuration k now =>
    exact h.onAgent (f := s.configuration now) (fun _ => ⟨rfl, fun _ hc => hc⟩) k
  | receive k => exact h.onAgent MemberAgent.Keeps.receive k
  | ask k => exact h.onAgent MemberAgent.Keeps.ask k
  | answer k accepted => exact h.answer k accepted
  | deliver i now =>
    simp only [ConsentSystem.step]
    split
    · exact h
    · rename_i r hr
      have hrest : ({ s with sent := s.sent.eraseIdx i } : ConsentSystem).Sound :=
        h.requests fun q hq => h.sent q (List.mem_of_mem_eraseIdx hq)
      exact hrest.consent (h.sent r (List.mem_of_getElem? hr)) (hguard r hr) now
  | drop i => exact h.requests fun q hq => h.sent q (List.mem_of_mem_eraseIdx hq)
  | replied k => exact h.onAgent MemberAgent.Keeps.replied k
  | giveUp k => exact h.onAgent MemberAgent.Keeps.giveUp k

/-! ## Consent -/

/-- **Consent is bound to what was shown**, in every run in which no edit overtakes an acceptance that the
server records. -/
theorem consentBound_run (directory : Database) (shifts : List Shift) (owners : List (Option Nat))
    {ops : List ConsentOp}
    (hguard : Guarded step NotOvertaken (start directory shifts owners) ops) :
    (run step (start directory shifts owners) ops).ConsentBound :=
  (guarded_invariant Sound (fun _ op hs hop => hs.step op hop) (Sound.start directory shifts owners)
    hguard).bound

/-- A member of the project with one device, and a policy for mornings. -/
def morningPolicy : PolicyValues where
  name := "Mornings"
  ruleType := some .fixedSchedule
  projectId := 1
  waitForActivity := true
  schedule := [("mon", [⟨some "09:00", some "12:00"⟩])]
  userIds := [2]

def trackedOffice : Database :=
  { users := [⟨2, .member, true, 480, 2400⟩]
    projects := [⟨1, true⟩]
    projectMembers := [⟨1, 2, .worker⟩] }

/-- The member is asked about the policy and sends an acceptance. -/
def acceptance : List ConsentOp :=
  [.create morningPolicy 0, .configuration 0 1, .receive 0, .ask 0, .answer 0 true]

theorem consentBound_run_accepted :
    (run step (start trackedOffice [] [some 2]) (acceptance ++ [.deliver 0 2])).ConsentBound :=
  consentBound_run trackedOffice [] [some 2] (by decide +kernel)

/-- The policy is edited to run around the clock, without waiting for activity, while the acceptance is on
its way; the server then takes the acceptance for the edited policy. -/
theorem consentBound_overtaken :
    ¬ (run step (start trackedOffice [] [some 2])
      (acceptance ++
        [.update 0
          { morningPolicy with
            waitForActivity := false
            schedule := [("mon", [⟨some "00:00", some "23:59"⟩])] } 2,
          .deliver 0 3])).ConsentBound := by
  decide +kernel

/-- The condition is exact: an acceptance that is recorded for other terms than those it was given for
leaves an accepted assignment that is not bound to what was shown. -/
theorem consentBound_breaks {s : ConsentSystem} {r : ConsentRequest} {userId : Nat}
    (hmember : s.member r = some userId) (hstale : ¬ s.UpToDate r) (now : Int) :
    ¬ (s.automaticTrackingConsent r now).ConsentBound := by
  intro hbound
  unfold automaticTrackingConsent at hbound
  rw [hmember] at hbound
  refine hstale fun haccepted ⟨a, ha, huser, hpolicy⟩ => ?_
  obtain rfl : a.userId = userId := Option.some.inj (huser.trans hmember)
  have hknown : (s.tables.respond a.userId r.policyId r.accepted now).2 = true :=
    List.any_eq_true.mpr ⟨a, ha, by simp [hpolicy]⟩
  have hnew : { a with consentStatus := .accepted, respondedAt := some now } ∈
      (s.tables.respond a.userId r.policyId r.accepted now).1.assignments := by
    have hmem := mem_updateWhere_of_mem
      (p := fun b : PolicyAssignment => b.userId == a.userId && b.policyId == r.policyId)
      (f := fun b : PolicyAssignment => { b with
        consentStatus := if r.accepted then .accepted else .declined
        respondedAt := some now }) ha
    simpa [PolicyTables.respond, hpolicy, haccepted] using hmem
  obtain ⟨r', hr', _, _, _, p, hp, hterms⟩ := hbound _ hnew rfl
  -- the last response of the member is the one that was recorded just now
  obtain rfl : r' = r := by
    have hlast : some r' = some r := hr'.symm.trans (by simp [lastResponse, respondTo, onAgent, hknown])
    exact Option.some.inj hlast
  exact ⟨p, hpolicy ▸ hp, hterms⟩

end ConsentSystem

end Dayfinch
