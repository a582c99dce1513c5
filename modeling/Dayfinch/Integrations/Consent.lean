/-
# Dayfinch.Integrations.Consent -- an open authorization period means that all three sides consent

A period of a user at an integration should be open exactly while the connection, the integration and
the user are enabled. The equivalence fails on the steps that switch one side and leave the periods alone:
a connector who takes the site's grant over, a member who is enabled again, an integration that is
switched by itself. And a period begins at the clock that the connecting call has read before its
transaction, so where consent is withdrawn and given again while a call is in flight, its period reaches
back over the time in between and into the period before. `keepsConsent` leaves these steps out.
`PeriodMove` says all that a step can do to the periods.
-/
import Mathlib.Data.List.Pairwise
import Dayfinch.Integrations.Connections

namespace Dayfinch

open Library (updateWhere run Guarded guarded_invariant run_invariant bind_eq_ok CountedKeys)

/-! ## The condition -/

namespace ConnectionStore

/-- The connection, the integration and the user are all enabled. -/
def consented (store : ConnectionStore) (integrationId userId : Nat) : Bool :=
  store.connectionEnabled integrationId userId && store.integrationEnabled integrationId &&
    store.userEnabled userId

/-- An enabled user has an enabled connection to the integration. -/
def waitsAt (store : ConnectionStore) (integrationId : Nat) : Bool :=
  store.connections.any fun c =>
    c.integrationId == integrationId && c.enabled && store.userEnabled c.userId

/-- The user has an enabled connection to an enabled integration. -/
def waitsFor (store : ConnectionStore) (userId : Nat) : Bool :=
  store.connections.any fun c =>
    c.userId == userId && c.enabled && store.integrationEnabled c.integrationId

/-- The user may use the site's grant, as the one who connected the site. -/
def isConnector (store : ConnectionStore) (integrationId userId : Nat) : Bool :=
  store.integrations.any fun i =>
    i.id == integrationId && i.enabled && i.createdByUserId == some userId

/-- Another user, who is enabled, has the site's grant. -/
def grantHeldByOther (store : ConnectionStore) (integrationId userId : Nat) : Bool :=
  store.connections.any fun c =>
    c.integrationId == integrationId && c.kind == .site && c.userId != userId && c.enabled &&
      store.userEnabled c.userId

/-- The integration and the user are enabled. -/
def sidesEnabled (store : ConnectionStore) (integrationId userId : Nat) : Bool :=
  store.integrationEnabled integrationId && store.userEnabled userId

end ConnectionStore

/-- The call connects this user to this integration. -/
def ConnectionCall.isOf (call : ConnectionCall) (integrationId userId : Nat) : Bool :=
  call.integrationId == integrationId && call.userId == userId

namespace ConnectionState

/-- A call that connects the user to the integration is in flight. -/
def connecting (s : ConnectionState) (integrationId userId : Nat) : Bool :=
  s.calls.any (·.isOf integrationId userId)

/-- The user consents: all three sides are enabled, where a call that is connecting the account stands for
the connection. -/
def consents (s : ConnectionState) (integrationId userId : Nat) : Bool :=
  (s.store.connectionEnabled integrationId userId || s.connecting integrationId userId) &&
    s.store.sidesEnabled integrationId userId

/-- Switching the user on neither gives consent back by itself nor overtakes a connecting call. -/
def mayEnableUser (s : ConnectionState) (userId : Nat) : Bool :=
  s.store.userEnabled userId || !(s.store.waitsFor userId || s.calls.any (·.userId == userId))

/-- Switching the integration on neither gives consent back by itself nor overtakes a connecting call. -/
def mayEnableIntegration (s : ConnectionState) (integrationId : Nat) : Bool :=
  s.store.integrationEnabled integrationId ||
    !(s.store.waitsAt integrationId || s.calls.any (·.integrationId == integrationId))

end ConnectionState

/-- **A step switches no side of an authorization without its periods, and none back on while a call is in
flight.** The connector takes no grant from an enabled user; a member is not enabled again, nor an
integration, where that completes an authorization or a connecting call of it is in flight; an integration
is not switched off by itself under an authorization; and an account is not disconnected while a call that
connects it is in flight. -/
def keepsConsent (s : ConnectionState) : ConnectionOp → Bool
  | .upsertUserConnection call => call.kind != .site ||
    !s.store.isConnector call.integrationId call.userId ||
    !s.store.grantHeldByOther call.integrationId call.userId
  | .disconnectUser integrationId userId => !s.connecting integrationId userId
  | .setUserEnabled userId true => s.mayEnableUser userId
  | .updateScimUser userId true => s.mayEnableUser userId
  | .setIntegrationEnabled integrationId true => s.mayEnableIntegration integrationId
  | .setIntegrationEnabled integrationId false => !s.store.waitsAt integrationId ||
    !s.store.integrationEnabled integrationId
  | .upsertSite (some resourceKey) _ =>
    s.store.integrations.all fun i => i.resourceKey != resourceKey || i.enabled ||
      !(s.store.waitsAt i.id || s.calls.any (·.integrationId == i.id))
  | _ => true

/-! ## What a step does to the periods -/

/-- All that a step can do to the table of periods and to the supply of ids: end open periods, none before
it has begun, begin one at an allowed instant when those of its user are over, drop periods with their
integration, and take an id for another row. -/
inductive PeriodMove (now : Int) (begins : Nat → Nat → Int → Prop) :
    List AuthorizationPeriod → Nat → List AuthorizationPeriod → Nat → Prop
  | refl (periods : List AuthorizationPeriod) (next : Nat) : PeriodMove now begins periods next periods next
  | close {at_ : Int} {where_ : AuthorizationPeriod → Bool} {periods : List AuthorizationPeriod}
    (next : Nat) (hle : at_ ≤ now)
    (hbegun : ∀ p ∈ periods, p.isOpen = true → where_ p = true → p.startedAt ≤ at_) :
    PeriodMove now begins periods next (closePeriods at_ where_ periods) next
  | begin_ {periods : List AuthorizationPeriod} {next integrationId userId : Nat} (accountId : String)
    {at_ : Int} (hle : at_ ≤ now) (hbegins : begins integrationId userId at_)
    (hover : ∀ p ∈ periods, p.isOf integrationId userId = true → ∃ e, p.endedAt = some e ∧ e ≤ at_) :
    PeriodMove now begins periods next
      (periods ++ [{ id := next, integrationId, userId, accountId, startedAt := at_, endedAt := none }])
      (next + 1)
  | drop (keep : AuthorizationPeriod → Bool) (periods : List AuthorizationPeriod) (next : Nat) :
    PeriodMove now begins periods next (periods.filter keep) next
  | take (periods : List AuthorizationPeriod) (next : Nat) :
    PeriodMove now begins periods next periods (next + 1)
  | trans {ps qs rs : List AuthorizationPeriod} {m n k : Nat} (h : PeriodMove now begins ps m qs n)
    (h' : PeriodMove now begins qs n rs k) : PeriodMove now begins ps m rs k

/-- A period of a closed table is an old one, or an open one ended now. -/
theorem mem_closePeriods {now : Int} {where_ : AuthorizationPeriod → Bool}
    {periods : List AuthorizationPeriod} {p : AuthorizationPeriod}
    (h : p ∈ closePeriods now where_ periods) :
    (p ∈ periods ∧ (p.isOpen && where_ p) = false) ∨
      ∃ q ∈ periods, q.endedAt = none ∧ where_ q = true ∧ p = { q with endedAt := some now } := by
  rcases Library.mem_updateWhere_cases h with hold | ⟨q, hq, hopen, rfl⟩
  · exact .inl hold
  · rw [Bool.and_eq_true] at hopen
    have hnone : q.endedAt = none := Option.isNone_iff_eq_none.mp hopen.1
    exact .inr ⟨q, hq, hnone, hopen.2, rfl⟩

/-! ## Periods one after the other -/

/-- Two periods of one user at one integration: the first is over when the second begins. -/
def Precedes (p q : AuthorizationPeriod) : Prop :=
  p.integrationId = q.integrationId → p.userId = q.userId →
    ∃ e, p.endedAt = some e ∧ e ≤ q.startedAt

/-- The table of periods at the clock: they come one after the other, none reaches beyond the clock, and
their ids come from the supply. -/
structure PeriodsInOrder (clock : Int) (periods : List AuthorizationPeriod) (next : Nat) : Prop where
  ordered : periods.Pairwise Precedes
  begun : ∀ p ∈ periods, p.startedAt ≤ clock
  ended : ∀ p ∈ periods, ∀ e, p.endedAt = some e → p.startedAt ≤ e ∧ e ≤ clock
  keys : CountedKeys (·.id) periods next

section

variable {now clock : Int} {begins : Nat → Nat → Int → Prop} {ps qs : List AuthorizationPeriod}
  {m n : Nat}

theorem AuthorizationPeriod.isOf_iff {p : AuthorizationPeriod} {integrationId userId : Nat} :
    p.isOf integrationId userId = true ↔ p.integrationId = integrationId ∧ p.userId = userId := by
  simp [AuthorizationPeriod.isOf]

/-- Ending the first or the second of two periods leaves them one after the other. -/
theorem Precedes.closed {p q p' q' : AuthorizationPeriod} (h : Precedes p q)
    (hp : p' = p ∨ p.endedAt = none ∧ p' = { p with endedAt := some now })
    (hq : q' = q ∨ q.endedAt = none ∧ q' = { q with endedAt := some now }) : Precedes p' q' := by
  have hqkey : q'.integrationId = q.integrationId ∧ q'.userId = q.userId ∧
      q'.startedAt = q.startedAt := by
    rcases hq with rfl | ⟨_, rfl⟩ <;> exact ⟨rfl, rfl, rfl⟩
  intro hi hu
  rcases hp with rfl | ⟨hopen, rfl⟩
  · obtain ⟨e, he, hle⟩ := h (hi.trans hqkey.1) (hu.trans hqkey.2.1)
    exact ⟨e, he, by omega⟩
  · -- an open period precedes none of its user
    obtain ⟨e, he, _⟩ := h (hi.trans hqkey.1) (hu.trans hqkey.2.1)
    rw [hopen] at he
    cases he

theorem closed_cases {where_ : AuthorizationPeriod → Bool} (p : AuthorizationPeriod) :
    (if p.isOpen && where_ p then { p with endedAt := some now } else p) = p ∨
      p.endedAt = none ∧
        (if p.isOpen && where_ p then { p with endedAt := some now } else p) =
          { p with endedAt := some now } := by
  by_cases hclose : (p.isOpen && where_ p) = true
  · rw [if_pos hclose]
    rw [Bool.and_eq_true] at hclose
    exact .inr ⟨Option.isNone_iff_eq_none.mp hclose.1, rfl⟩
  · rw [if_neg hclose]
    exact .inl rfl

theorem PeriodsInOrder.close (h : PeriodsInOrder now ps m) {at_ : Int}
    {where_ : AuthorizationPeriod → Bool} (hle : at_ ≤ now)
    (hbegun : ∀ p ∈ ps, p.isOpen = true → where_ p = true → p.startedAt ≤ at_) :
    PeriodsInOrder now (closePeriods at_ where_ ps) m where
  ordered := by
    refine List.Pairwise.map _ (fun p q hpq => ?_) h.ordered
    exact hpq.closed (closed_cases p) (closed_cases q)
  begun := by
    intro p hp
    rcases mem_closePeriods hp with ⟨hold, _⟩ | ⟨q, hq, _, _, rfl⟩
    · exact h.begun p hold
    · exact h.begun q hq
  ended := by
    intro p hp e he
    rcases mem_closePeriods hp with ⟨hold, _⟩ | ⟨q, hq, hopen, hwhere, rfl⟩
    · exact h.ended p hold e he
    · obtain rfl : at_ = e := Option.some.inj he
      exact ⟨hbegun q hq (Option.isNone_iff_eq_none.mpr hopen) hwhere, hle⟩
  keys := h.keys.updateWhere fun _ => rfl

theorem PeriodsInOrder.begin_ (h : PeriodsInOrder now ps m) {integrationId userId : Nat}
    (accountId : String) {at_ : Int} (hle : at_ ≤ now)
    (hover : ∀ p ∈ ps, p.isOf integrationId userId = true → ∃ e, p.endedAt = some e ∧ e ≤ at_) :
    PeriodsInOrder now
      (ps ++ [{ id := m, integrationId, userId, accountId, startedAt := at_, endedAt := none }])
      (m + 1) where
  ordered := by
    refine List.pairwise_append.mpr ⟨h.ordered, List.pairwise_singleton _ _, fun p hp q hq hi hu => ?_⟩
    obtain rfl := List.mem_singleton.mp hq
    exact hover p hp (AuthorizationPeriod.isOf_iff.mpr ⟨hi, hu⟩)
  begun := by
    intro p hp
    rcases List.mem_append.mp hp with hold | hnew
    · exact h.begun p hold
    · rw [List.mem_singleton.mp hnew]
      exact hle
  ended := by
    intro p hp e he
    rcases List.mem_append.mp hp with hold | hnew
    · exact h.ended p hold e he
    · rw [List.mem_singleton.mp hnew] at he
      cases he
  keys := h.keys.append rfl

/-- **A step keeps the periods in order.** -/
theorem PeriodsInOrder.move (hmove : PeriodMove now begins ps m qs n) (h : PeriodsInOrder now ps m) :
    PeriodsInOrder now qs n := by
  induction hmove with
  | refl => exact h
  | close next hle hbegun => exact h.close hle hbegun
  | begin_ accountId hle _ hover => exact h.begin_ accountId hle hover
  | drop keep =>
    exact ⟨h.ordered.filter _, fun p hp => h.begun p (List.mem_filter.mp hp).1,
      fun p hp => h.ended p (List.mem_filter.mp hp).1, h.keys.sublist List.filter_sublist⟩
  | take => exact ⟨h.ordered, h.begun, h.ended, h.keys.mono (Nat.le_succ _)⟩
  | trans _ _ ih ih' => exact ih' (ih h)

theorem PeriodsInOrder.later (h : PeriodsInOrder now ps m) (hle : now ≤ clock) :
    PeriodsInOrder clock ps m where
  ordered := h.ordered
  begun := fun p hp => (h.begun p hp).trans hle
  ended := fun p hp e he => ⟨(h.ended p hp e he).1, (h.ended p hp e he).2.trans hle⟩
  keys := h.keys

/-- A closed period of a user is over before the open one begins. -/
theorem PeriodsInOrder.ended_le_open (h : PeriodsInOrder now ps m) {p q : AuthorizationPeriod}
    (hp : p ∈ ps) (hq : q ∈ ps) (hi : p.integrationId = q.integrationId) (hu : p.userId = q.userId)
    (hopen : q.endedAt = none) {e : Int} (he : p.endedAt = some e) : e ≤ q.startedAt := by
  have hne : p ≠ q := by
    rintro rfl
    rw [hopen] at he
    cases he
  have heither : ps.Pairwise fun p q => Precedes p q ∨ Precedes q p := h.ordered.imp .inl
  have : Std.Symm fun p q => Precedes p q ∨ Precedes q p := ⟨fun _ _ => Or.symm⟩
  rcases heither.forall hp hq hne with hbefore | hafter
  · obtain ⟨e', he', hle⟩ := hbefore hi hu
    rw [he] at he'
    cases he'
    exact hle
  · obtain ⟨e', he', _⟩ := hafter hi.symm hu.symm
    rw [hopen] at he'
    cases he'

/-! ## What stays -/

/-- A closed period, wherever its id is still in the table. -/
def StaysClosed (q : AuthorizationPeriod) (periods : List AuthorizationPeriod) (next : Nat) : Prop :=
  q.id < next ∧ ∀ p ∈ periods, p.id = q.id → p = q

theorem StaysClosed.move {q : AuthorizationPeriod} (hmove : PeriodMove now begins ps m qs n)
    (hclosed : q.endedAt ≠ none) (h : StaysClosed q ps m) : StaysClosed q qs n := by
  induction hmove with
  | refl => exact h
  | close =>
    refine ⟨h.1, fun p hp hid => ?_⟩
    rcases mem_closePeriods hp with ⟨hold, _⟩ | ⟨r, hr, hopen, _, rfl⟩
    · exact h.2 p hold hid
    · -- a row with the id of a closed one is not open
      exact absurd (h.2 r hr hid ▸ hopen) hclosed
  | begin_ =>
    refine ⟨Nat.lt_succ_of_lt h.1, fun p hp hid => ?_⟩
    rcases List.mem_append.mp hp with hold | hnew
    · exact h.2 p hold hid
    · rw [List.mem_singleton.mp hnew] at hid
      exact absurd hid (Nat.ne_of_gt h.1)
  | drop keep => exact ⟨h.1, fun p hp => h.2 p (List.mem_filter.mp hp).1⟩
  | take => exact ⟨Nat.lt_succ_of_lt h.1, h.2⟩
  | trans _ _ ih ih' => exact ih' (ih h)

/-- No period of the user at the integration has an instant from `a` up to `b`. -/
def Uncovered (integrationId userId : Nat) (a b : Int) (periods : List AuthorizationPeriod) : Prop :=
  ∀ p ∈ periods, p.integrationId = integrationId → p.userId = userId →
    (∃ e, p.endedAt = some e ∧ e ≤ a) ∨ b ≤ p.startedAt

theorem Uncovered.move {integrationId userId : Nat} {a b : Int}
    (hmove : PeriodMove now begins ps m qs n) (hbegins : ∀ t, begins integrationId userId t → b ≤ t)
    (h : Uncovered integrationId userId a b ps) : Uncovered integrationId userId a b qs := by
  induction hmove with
  | refl => exact h
  | close =>
    intro p hp hi hu
    rcases mem_closePeriods hp with ⟨hold, _⟩ | ⟨r, hr, hopen, _, rfl⟩
    · exact h p hold hi hu
    · rcases h r hr hi hu with ⟨e, he, _⟩ | hafter
      · rw [hopen] at he
        cases he
      · exact .inr hafter
  | begin_ accountId _ hat =>
    intro p hp hi hu
    rcases List.mem_append.mp hp with hold | hnew
    · exact h p hold hi hu
    · obtain rfl := List.mem_singleton.mp hnew
      obtain rfl : _ = integrationId := hi
      obtain rfl : _ = userId := hu
      exact .inr (hbegins _ hat)
  | drop keep => exact fun p hp => h p (List.mem_filter.mp hp).1
  | take => exact h
  | trans _ _ ih ih' => exact ih' (ih h)

end

/-! ## The sides after an operation -/

/-- A period is open exactly where all sides are enabled. -/
def Consents (store : ConnectionStore) : Prop :=
  ∀ integrationId userId, store.hasOpenPeriod integrationId userId =
    store.consented integrationId userId

section

variable {now : Int} {store store' : ConnectionStore} {i u i₀ u₀ : Nat}

/-- Ending the periods of some users ends those of a user or leaves them. -/
theorem hasOpen_closePeriods {where_ : AuthorizationPeriod → Bool} {k : Bool}
    (periods : List AuthorizationPeriod) (hk : ∀ p, p.isOf i u = true → where_ p = k) :
    (closePeriods now where_ periods).any (fun p => p.isOf i u && p.isOpen) =
      (!k && periods.any fun p => p.isOf i u && p.isOpen) := by
  have hrow : ∀ p ∈ periods, (fun p : AuthorizationPeriod => p.isOf i u && p.isOpen)
      (if p.isOpen && where_ p then { p with endedAt := some now } else p) =
        (!k && (p.isOf i u && p.isOpen)) := by
    intro p _
    by_cases hof : p.isOf i u = true
    · rw [hk p hof]
      by_cases hclose : (p.isOpen && k) = true
      · rw [if_pos hclose]
        rw [Bool.and_eq_true] at hclose
        simp [AuthorizationPeriod.isOpen, hclose.2]
      · rw [if_neg hclose]
        rw [Bool.not_eq_true] at hclose
        cases hopen : p.isOpen <;> cases k <;> simp_all
    · rw [Bool.not_eq_true] at hof
      have hof' : (if p.isOpen && where_ p then { p with endedAt := some now } else p).isOf i u =
          false := by
        split
        · exact hof
        · exact hof
      simp only [hof, hof', Bool.false_and, Bool.and_false]
  unfold closePeriods
  rw [Library.any_updateWhere, Library.any_congr_of_mem hrow]
  cases k with
  | true => simp
  | false => simp

/-- The integrations change, and where they do nobody waits. -/
theorem Consents.of_integrations (h : Consents store) (hconnections : store'.connections = store.connections)
    (husers : store'.users = store.users) (hperiods : store'.periods = store.periods)
    (hintegrations : ∀ i, store'.integrationEnabled i = store.integrationEnabled i ∨
      store.waitsAt i = false) : Consents store' := by
  intro i u
  have hold := h i u
  unfold ConnectionStore.hasOpenPeriod ConnectionStore.consented ConnectionStore.connectionEnabled
    ConnectionStore.userEnabled at *
  rw [hconnections, husers, hperiods, hold]
  rcases hintegrations i with hsame | hnobody
  · rw [hsame]
  · -- an enabled connection here is of a user who is switched off
    unfold ConnectionStore.waitsAt at hnobody
    rw [List.any_eq_false] at hnobody
    by_cases hconnected : (store.connections.any fun c => c.isOf i u && c.enabled) = true
    · obtain ⟨c, hc, hboth⟩ := List.any_eq_true.mp hconnected
      rw [Bool.and_eq_true] at hboth
      have huser : (store.users.any fun v => v.id == u && v.enabled) = false := by
        have hc' := hnobody c hc
        obtain ⟨hof, henabled⟩ := hboth
        simp only [UserConnection.isOf, Bool.and_eq_true, beq_iff_eq] at hof
        rw [hof.1, hof.2, henabled] at hc'
        simpa [ConnectionStore.userEnabled] using hc'
      rw [huser, Bool.and_false, Bool.and_false]
    · rw [Bool.not_eq_true] at hconnected
      rw [hconnected, Bool.false_and, Bool.false_and, Bool.false_and, Bool.false_and]

/-- The users change, and where they do they wait for nothing. -/
theorem Consents.of_users (h : Consents store) (hconnections : store'.connections = store.connections)
    (hintegrations : store'.integrations = store.integrations)
    (hperiods : store'.periods = store.periods)
    (husers : ∀ u, store'.userEnabled u = store.userEnabled u ∨ store.waitsFor u = false) :
    Consents store' := by
  intro i u
  have hold := h i u
  unfold ConnectionStore.hasOpenPeriod ConnectionStore.consented ConnectionStore.connectionEnabled
    ConnectionStore.integrationEnabled at *
  rw [hconnections, hintegrations, hperiods, hold]
  rcases husers u with hsame | hnothing
  · rw [hsame]
  · unfold ConnectionStore.waitsFor at hnothing
    rw [List.any_eq_false] at hnothing
    by_cases hconnected : (store.connections.any fun c => c.isOf i u && c.enabled) = true
    · obtain ⟨c, hc, hboth⟩ := List.any_eq_true.mp hconnected
      rw [Bool.and_eq_true] at hboth
      have hintegration : (store.integrations.any fun r => r.id == i && r.enabled) = false := by
        have hc' := hnothing c hc
        obtain ⟨hof, henabled⟩ := hboth
        simp only [UserConnection.isOf, Bool.and_eq_true, beq_iff_eq] at hof
        rw [hof.1, hof.2, henabled] at hc'
        simpa [ConnectionStore.integrationEnabled] using hc'
      rw [hintegration, Bool.and_false, Bool.false_and, Bool.false_and]
    · rw [Bool.not_eq_true] at hconnected
      rw [hconnected, Bool.false_and, Bool.false_and, Bool.false_and]

/-- A side is withdrawn with the open periods, and nothing else changes. -/
theorem Consents.of_withdrawn (h : Consents store) (gone : Nat → Nat → Bool)
    (hperiods : ∀ i u, store'.hasOpenPeriod i u = (!gone i u && store.hasOpenPeriod i u))
    (hsides : ∀ i u, gone i u = true → store'.consented i u = false)
    (hrest : ∀ i u, gone i u = false → store'.consented i u = store.consented i u) :
    Consents store' := by
  intro i u
  rw [hperiods i u]
  cases hgone : gone i u with
  | true => rw [hsides i u hgone]; rfl
  | false => rw [hrest i u hgone, ← h i u]; rfl

/-- Who is enabled after a switch. -/
theorem enabled_switchUser (users : List User) (u u₀ : Nat) (enabled : Bool) :
    (updateWhere (fun v : User => v.id == u₀) (fun v => { v with enabled }) users).any
        (fun v => v.id == u && v.enabled) =
      if u = u₀ then enabled && users.any (·.id == u₀) else users.any fun v => v.id == u && v.enabled :=
  Library.any_flag_updateWhere (f := fun v => { v with enabled }) (·.id) (·.enabled) (fun _ => rfl)
    (fun _ => rfl) u u₀ users

/-- Which integrations are enabled after a switch. -/
theorem enabled_switchIntegration (integrations : List Integration) (i i₀ : Nat) (enabled : Bool) :
    (updateWhere (fun r : Integration => r.id == i₀) (fun r => { r with enabled }) integrations).any
        (fun r => r.id == i && r.enabled) =
      if i = i₀ then enabled && integrations.any (·.id == i₀) else
        integrations.any fun r => r.id == i && r.enabled :=
  Library.any_flag_updateWhere (f := fun r => { r with enabled }) (·.id) (·.enabled) (fun _ => rfl)
    (fun _ => rfl) i i₀ integrations

/-- Switching a member off withdraws everywhere; switching on asks that the member waits for nothing. -/
theorem Consents.switchUser (h : Consents store) (enabled : Bool)
    (hguard : enabled = true → store.userEnabled u₀ = true ∨ store.waitsFor u₀ = false) :
    Consents (store.switchUser now u₀ enabled) := by
  unfold ConnectionStore.switchUser
  cases enabled with
  | true =>
    refine h.of_users rfl rfl rfl fun u => ?_
    by_cases hu : u = u₀
    · subst hu
      rcases hguard rfl with hon | hnothing
      · refine .inl ?_
        have hany := enabled_switchUser store.users u u true
        rw [if_pos rfl] at hany
        have hexists : store.users.any (·.id == u) = true := by
          obtain ⟨v, hv, hboth⟩ := List.any_eq_true.mp hon
          rw [Bool.and_eq_true] at hboth
          exact List.any_eq_true.mpr ⟨v, hv, hboth.1⟩
        rw [hexists] at hany
        rw [hon]
        exact hany
      · exact .inr hnothing
    · have hany := enabled_switchUser store.users u u₀ true
      rw [if_neg hu] at hany
      exact .inl hany
  | false =>
    refine h.of_withdrawn (fun _ u => u == u₀) (fun i u => ?_) (fun i u hgone => ?_) fun i u hgone => ?_
    · refine hasOpen_closePeriods _ fun p hp => ?_
      rw [(AuthorizationPeriod.isOf_iff.mp hp).2]
    · have hany := enabled_switchUser store.users u u₀ false
      rw [if_pos (beq_iff_eq.mp hgone), Bool.false_and] at hany
      show (_ && _ && _) = false
      rw [Bool.and_eq_false_iff]
      exact .inr hany
    · have hne : u ≠ u₀ := by simpa using hgone
      have hany := enabled_switchUser store.users u u₀ false
      rw [if_neg hne] at hany
      unfold ConnectionStore.consented
      congr 1
      · congr 1
        show (store.connections.filter _).any _ = store.connections.any _
        rw [List.any_filter]
        refine Library.any_congr_of_mem fun c _ => ?_
        by_cases hof : c.isOf i u = true
        · have hc : c.userId = u := by
            simp only [UserConnection.isOf, Bool.and_eq_true, beq_iff_eq] at hof
            exact hof.2
          simp [hc, hne]
        · simp [hof]

theorem Consents.setIntegrationEnabled (h : Consents store) {enabled : Bool}
    (hguard : store.integrationEnabled i₀ = enabled ∨ store.waitsAt i₀ = false)
    (hok : store.setIntegrationEnabled i₀ enabled = .ok store') : Consents store' := by
  obtain ⟨_, hexists, hok⟩ := bind_eq_ok.mp hok
  obtain rfl := Except.ok.inj hok
  refine h.of_integrations rfl rfl rfl fun i => ?_
  have hany := enabled_switchIntegration store.integrations i i₀ enabled
  by_cases hi : i = i₀
  · subst hi
    rcases hguard with hsame | hnobody
    · rw [if_pos rfl] at hany
      have hrow : store.integrations.any (·.id == i) = true := by
        have hall : ¬ store.integrations.all (·.id != i) = true := raiseIf_eq_ok.mp hexists
        simpa using hall
      rw [hrow, Bool.and_true] at hany
      exact .inl (hany.trans hsame.symm)
    · exact .inr hnobody
  · rw [if_neg hi] at hany
    exact .inl hany

/-- Connecting a site switches its integration on, or adds one that nobody is connected to. -/
theorem Consents.upsertSite {provider : CloudProvider} (h : Consents store) {resourceKey : String}
    {createdByUserId : Nat} (hknown : ∀ c ∈ store.connections, c.integrationId < store.nextId)
    (hguard : ∀ r ∈ store.integrations, r.resourceKey = resourceKey → r.enabled = false →
      store.waitsAt r.id = false)
    (hok : store.upsertSite provider (some resourceKey) createdByUserId = .ok store') :
    Consents store' := by
  unfold ConnectionStore.upsertSite at hok
  dsimp only at hok
  split at hok
  · cases hok
  split at hok
  · obtain rfl := Except.ok.inj hok
    refine h.of_integrations rfl rfl rfl fun i => ?_
    by_cases hwaits : store.waitsAt i = true
    · -- no row of this integration is switched on now
      refine .inl ?_
      show (updateWhere _ _ store.integrations).any _ = store.integrations.any _
      rw [Library.any_updateWhere]
      refine Library.any_congr_of_mem fun r hr => ?_
      by_cases hkey : (r.resourceKey == resourceKey) = true
      · rw [if_pos hkey]
        by_cases hid : r.id = i
        · have hon : r.enabled = true := by
            by_contra hoff
            rw [Bool.not_eq_true] at hoff
            have hnobody := hguard r hr (beq_iff_eq.mp hkey) hoff
            rw [hid, hwaits] at hnobody
            cases hnobody
          simp [hon]
        · simp [hid]
      · rw [if_neg hkey]
    · exact .inr (by simpa using hwaits)
  · obtain rfl := Except.ok.inj hok
    refine h.of_integrations rfl rfl rfl fun i => ?_
    by_cases hi : i = store.nextId
    · refine .inr ?_
      subst hi
      unfold ConnectionStore.waitsAt
      rw [List.any_eq_false]
      intro c hc
      have hlt := hknown c hc
      have hne : (c.integrationId == store.nextId) = false := beq_false_of_ne (Nat.ne_of_lt hlt)
      simp [hne]
    · refine .inl ?_
      have hne : (store.nextId == i) = false := beq_false_of_ne (Ne.symm hi)
      show (store.integrations ++ _).any _ = store.integrations.any _
      rw [List.any_append]
      simp [hne]

/-- Dropping the connections of an integration takes them from all its users. -/
theorem connectionEnabled_drop :
    (store.connections.filter (·.integrationId != i₀)).any (fun c => c.isOf i u && c.enabled) =
      (i != i₀ && store.connectionEnabled i u) := by
  refine Library.any_filter_of_imp fun c _ hc => ?_
  simp only [UserConnection.isOf, Bool.and_eq_true, beq_iff_eq] at hc
  rw [hc.1.1]

theorem Consents.disconnectIntegration {provider : CloudProvider} (h : Consents store)
    (hok : store.disconnectIntegration provider now i₀ = .ok store') : Consents store' := by
  obtain ⟨_, _, hok⟩ := bind_eq_ok.mp hok
  split at hok
  · cases hok
  obtain rfl := Except.ok.inj hok
  refine h.of_withdrawn (fun i _ => i == i₀) (fun i u => ?_) (fun i u hgone => ?_) fun i u hgone => ?_
  · refine hasOpen_closePeriods _ fun p hp => ?_
    rw [(AuthorizationPeriod.isOf_iff.mp hp).1]
  · have hany := enabled_switchIntegration store.integrations i i₀ false
    rw [if_pos (beq_iff_eq.mp hgone), Bool.false_and] at hany
    show (_ && _ && _) = false
    rw [Bool.and_eq_false_iff, Bool.and_eq_false_iff]
    exact .inl (.inr hany)
  · have hne : i ≠ i₀ := by simpa using hgone
    have hany := enabled_switchIntegration store.integrations i i₀ false
    rw [if_neg hne] at hany
    unfold ConnectionStore.consented
    congr 1
    congr 1
    exact connectionEnabled_drop.trans (by rw [bne_iff_ne.mpr hne, Bool.true_and])

theorem Consents.deleteUnconfigured (h : Consents store) (configured : Bool) :
    Consents (store.deleteUnconfigured i₀ configured) := by
  unfold ConnectionStore.deleteUnconfigured
  split
  · exact h
  have hintegrations : ∀ i, (store.integrations.filter (·.id != i₀)).any (fun r => r.id == i && r.enabled) =
      (i != i₀ && store.integrationEnabled i) := by
    intro i
    refine Library.any_filter_of_imp fun r _ hr => ?_
    rw [Bool.and_eq_true, beq_iff_eq] at hr
    rw [hr.1]
  refine h.of_withdrawn (fun i _ => i == i₀) (fun i u => ?_) (fun i u hgone => ?_) fun i u hgone => ?_
  · refine Library.any_filter_of_imp fun p _ hp => ?_
    rw [Bool.and_eq_true, AuthorizationPeriod.isOf_iff] at hp
    rw [hp.1.1]
    rfl
  · show (_ && List.any _ _ && _) = false
    rw [hintegrations i, beq_iff_eq.mp hgone]
    simp
  · have hne : (i != i₀) = true := by simpa using hgone
    show (List.any _ _ && List.any _ _ && _) = _
    rw [connectionEnabled_drop, hintegrations i, hne, Bool.true_and, Bool.true_and]
    rfl

/-- Disconnecting an account withdraws it from one user. -/
theorem Consents.disconnectUser {provider : CloudProvider} (h : Consents store)
    (hok : store.disconnectUser provider now i₀ u₀ = .ok store') : Consents store' := by
  unfold ConnectionStore.disconnectUser at hok
  split at hok
  · cases hok
  obtain ⟨_, _, hok⟩ := bind_eq_ok.mp hok
  obtain rfl := Except.ok.inj hok
  have hconnections : ∀ i u, (store.connections.filter fun c => !c.isOf i₀ u₀).any
      (fun c => c.isOf i u && c.enabled) =
      (!(i == i₀ && u == u₀) && store.connectionEnabled i u) := by
    intro i u
    refine Library.any_filter_of_imp fun c _ hc => ?_
    simp only [UserConnection.isOf, Bool.and_eq_true, beq_iff_eq] at hc ⊢
    rw [hc.1.1, hc.1.2]
  refine h.of_withdrawn (fun i u => i == i₀ && u == u₀) (fun i u => ?_) (fun i u hgone => ?_)
    fun i u hgone => ?_
  · refine hasOpen_closePeriods _ fun p hp => ?_
    rw [AuthorizationPeriod.isOf_iff] at hp
    unfold AuthorizationPeriod.isOf
    rw [hp.1, hp.2]
  · show (List.any _ _ && _ && _) = false
    rw [hconnections i u, hgone]
    rfl
  · show (List.any _ _ && _ && _) = _
    rw [hconnections i u, hgone]
    rfl

/-- After an account is connected, its user has an open period there, and the others have theirs. -/
theorem hasOpenPeriod_beginPeriod (accountId : String) :
    (store.beginPeriod now i₀ u₀ accountId).hasOpenPeriod i u =
      ((i == i₀ && u == u₀) || store.hasOpenPeriod i u) := by
  have hother : (i == i₀ && u == u₀) = false →
      (closePeriods now (·.ofOtherAccount i₀ u₀ accountId) store.periods).any
        (fun p => p.isOf i u && p.isOpen) = store.hasOpenPeriod i u := by
    intro hne
    refine (hasOpen_closePeriods (k := false) _ fun p hp => ?_).trans (Bool.true_and _)
    rw [AuthorizationPeriod.isOf_iff] at hp
    unfold AuthorizationPeriod.ofOtherAccount AuthorizationPeriod.isOf
    rw [hp.1, hp.2, hne, Bool.false_and]
  unfold ConnectionStore.beginPeriod
  dsimp only
  split
  · rename_i hkept
    cases hkey : (i == i₀ && u == u₀) with
    | true =>
      rw [Bool.and_eq_true, beq_iff_eq, beq_iff_eq] at hkey
      rw [hkey.1, hkey.2, Bool.true_or]
      exact hkept
    | false => exact (hother hkey).trans (Bool.false_or _).symm
  · show List.any (_ ++ _) _ = _
    rw [List.any_append, List.any_cons, List.any_nil, Bool.or_false]
    cases hkey : (i == i₀ && u == u₀) with
    | true =>
      rw [Bool.and_eq_true, beq_iff_eq, beq_iff_eq] at hkey
      rw [hkey.1, hkey.2]
      simp [AuthorizationPeriod.isOf, AuthorizationPeriod.isOpen]
    | false =>
      rw [hother hkey, Bool.false_or]
      have hof : (AuthorizationPeriod.mk store.nextId i₀ u₀ accountId now none).isOf i u = false := by
        rw [← Bool.not_eq_true] at hkey ⊢
        rw [AuthorizationPeriod.isOf_iff]
        rw [Bool.and_eq_true, beq_iff_eq, beq_iff_eq] at hkey
        exact fun hof => hkey ⟨hof.1.symm, hof.2.symm⟩
      rw [hof, Bool.false_and, Bool.or_false]

/-- The row that is put is the one connection of its user. -/
theorem connectionEnabled_putConnection (row : UserConnection) (henabled : row.enabled = true) :
    (store.putConnection row).connectionEnabled i u =
      (row.isOf i u || store.connectionEnabled i u) := by
  have hsame : ∀ c : UserConnection, c.isOf row.integrationId row.userId = true →
      c.isOf i u = row.isOf i u := by
    intro c hc
    simp only [UserConnection.isOf, Bool.and_eq_true, beq_iff_eq] at hc
    simp only [UserConnection.isOf, hc.1, hc.2]
  unfold ConnectionStore.putConnection
  split
  · rename_i hexists
    show (updateWhere _ _ _).any _ = _
    rw [Library.any_updateWhere]
    cases hrow : row.isOf i u with
    | true =>
      rw [Bool.true_or, List.any_eq_true]
      obtain ⟨c, hc, hof⟩ := List.any_eq_true.mp hexists
      refine ⟨c, hc, ?_⟩
      rw [if_pos hof, hrow, henabled]
      rfl
    | false =>
      rw [Bool.false_or]
      refine Library.any_congr_of_mem fun c _ => ?_
      by_cases hof : c.isOf row.integrationId row.userId = true
      · rw [if_pos hof, hrow, hsame c hof, hrow]
        rfl
      · rw [if_neg hof]
  · show List.any (_ ++ _) _ = _
    rw [List.any_append, List.any_cons, List.any_nil, Bool.or_false, henabled, Bool.and_true,
      Bool.or_comm]
    rfl

/-- Taking the grant from users who are switched off withdraws nothing. -/
theorem Consents.takeSiteGrant (h : Consents store) (hguard : store.grantHeldByOther i₀ u₀ = false) :
    Consents (store.takeSiteGrant i₀ u₀) := by
  intro i u
  refine (h i u).trans ?_
  show _ = (List.any (updateWhere _ _ _) _ && store.integrationEnabled i && store.userEnabled u)
  rw [Library.any_updateWhere]
  unfold ConnectionStore.consented
  cases huser : store.userEnabled u with
  | false => rw [Bool.and_false, Bool.and_false]
  | true =>
    congr 2
    refine Library.any_congr_of_mem fun c hc => ?_
    unfold ConnectionStore.grantHeldByOther at hguard
    rw [List.any_eq_false] at hguard
    have hc' := hguard c hc
    by_cases htaken : (c.integrationId == i₀ && c.kind == .site && c.userId != u₀) = true
    · rw [if_pos htaken]
      rw [htaken, Bool.true_and, Bool.not_eq_true, Bool.and_eq_false_iff] at hc'
      rw [Bool.and_false]
      by_cases hof : c.isOf i u = true
      · have hcuser : c.userId = u := by
          simp only [UserConnection.isOf, Bool.and_eq_true, beq_iff_eq] at hof
          exact hof.2
        rcases hc' with hoff | hoff
        · rw [hoff, Bool.and_false]
        · rw [hcuser, huser] at hoff
          cases hoff
      · rw [Bool.not_eq_true] at hof
        rw [hof, Bool.false_and]
    · rw [if_neg htaken]

/-- An account that an enabled user connects to an enabled integration is authorized. -/
theorem Consents.put (h : Consents store) (row : UserConnection) (henabled : row.enabled = true)
    (hintegration : store.integrationEnabled row.integrationId = true)
    (huser : store.userEnabled row.userId = true) :
    Consents ((store.putConnection row).beginPeriod now row.integrationId row.userId row.accountId) := by
  intro i u
  rw [hasOpenPeriod_beginPeriod]
  have hput := @connectionEnabled_putConnection store i u row henabled
  have hperiods : (store.putConnection row).hasOpenPeriod i u = store.hasOpenPeriod i u := by
    unfold ConnectionStore.putConnection
    split
    · rfl
    · rfl
  have hsides : ((store.putConnection row).beginPeriod now row.integrationId row.userId
      row.accountId).consented i u =
      ((store.putConnection row).connectionEnabled i u && store.integrationEnabled i &&
        store.userEnabled u) := by
    unfold ConnectionStore.beginPeriod ConnectionStore.putConnection
    dsimp only
    split
    · split
      · rfl
      · rfl
    · split
      · rfl
      · rfl
  rw [hsides, hput, hperiods, h i u]
  unfold ConnectionStore.consented UserConnection.isOf
  by_cases hkey : i = row.integrationId ∧ u = row.userId
  · rw [hkey.1, hkey.2, hintegration, huser]
    simp
  · have hrow : (row.integrationId == i && row.userId == u) = false := by
      rw [← Bool.not_eq_true, Bool.and_eq_true, beq_iff_eq, beq_iff_eq]
      exact fun hof => hkey ⟨hof.1.symm, hof.2.symm⟩
    have hrow' : (i == row.integrationId && u == row.userId) = false := by
      rw [← Bool.not_eq_true, Bool.and_eq_true, beq_iff_eq, beq_iff_eq]
      exact hkey
    rw [hrow, hrow', Bool.false_or, Bool.false_or]

theorem Consents.connect (h : Consents store) (row : UserConnection) (henabled : row.enabled = true)
    (hintegration : store.integrationEnabled row.integrationId = true)
    (huser : store.userEnabled row.userId = true)
    (hguard : row.kind = .site → store.grantHeldByOther row.integrationId row.userId = false) :
    Consents (store.connect now row) := by
  unfold ConnectionStore.connect
  dsimp only
  split
  · rename_i hsite
    exact (h.takeSiteGrant (hguard hsite)).put row henabled hintegration huser
  · exact h.put row henabled hintegration huser

end

/-! ## Every step -/

/-- A call in flight begins no period before an earlier one of its user has ended: it is for a known
integration, has read its clock, and either raises as a side is switched off, finds an open period, or has
read the clock after the last one ended. -/
structure CallInOrder (s : ConnectionState) (call : ConnectionCall) : Prop where
  known : call.integrationId < s.store.nextId
  read : call.readAt ≤ s.clock
  ended : s.store.sidesEnabled call.integrationId call.userId = true →
    s.store.hasOpenPeriod call.integrationId call.userId = false →
    ∀ p ∈ s.store.periods, p.isOf call.integrationId call.userId = true →
    ∀ e, p.endedAt = some e → e ≤ call.readAt

/-- What holds in every run whose steps meet the condition: the periods are in order, the integrations that
rows refer to have been given out, and the calls in flight come after the periods. -/
structure ConnectionInvariant (s : ConnectionState) : Prop where
  periods : PeriodsInOrder s.clock s.store.periods s.store.nextId
  integrations : ∀ r ∈ s.store.integrations, r.id < s.store.nextId
  connections : ∀ c ∈ s.store.connections, c.integrationId < s.store.nextId
  calls : ∀ call ∈ s.calls, CallInOrder s call

/-- The instants at which a step may begin a period: that of the call whose transaction it is. -/
def BeginsAt (s : ConnectionState) (op : ConnectionOp) (integrationId userId : Nat) (t : Int) : Prop :=
  ∃ call ∈ s.calls, op = .upsertUserConnection call ∧ call.isOf integrationId userId = true ∧
    call.readAt = t ∧ s.store.sidesEnabled integrationId userId = true

section

variable {provider : CloudProvider} {store store' : ConnectionStore} {now : Int}
  {begins : Nat → Nat → Int → Prop}

theorem PeriodMove.next_le {ps qs : List AuthorizationPeriod} {m n : Nat}
    (h : PeriodMove now begins ps m qs n) : m ≤ n := by
  induction h with
  | refl => exact le_rfl
  | close => exact le_rfl
  | begin_ => exact Nat.le_succ _
  | drop => exact le_rfl
  | take => exact Nat.le_succ _
  | trans _ _ ih ih' => exact ih.trans ih'

/-- Periods can always be ended now. -/
theorem PeriodsInOrder.move_close {ps : List AuthorizationPeriod} {m : Nat} (h : PeriodsInOrder now ps m)
    (where_ : AuthorizationPeriod → Bool) :
    PeriodMove now begins ps m (closePeriods now where_ ps) m :=
  .close m le_rfl fun p hp _ _ => h.begun p hp

theorem startedAt_le_of_not_endsBeforeStart {at_ : Int} {where_ : AuthorizationPeriod → Bool}
    {periods : List AuthorizationPeriod} (h : endsBeforeStart at_ where_ periods = false) :
    ∀ p ∈ periods, p.isOpen = true → where_ p = true → p.startedAt ≤ at_ := by
  intro p hp hopen hwhere
  have hp' := List.any_eq_false.mp h p hp
  rw [hopen, hwhere] at hp'
  simpa using hp'

theorem beginPeriod_move {at_ : Int} {integrationId userId : Nat} {accountId : String}
    (h : PeriodsInOrder now store.periods store.nextId) (hle : at_ ≤ now)
    (hbegins : begins integrationId userId at_)
    (hcheck : endsBeforeStart at_ (·.ofOtherAccount integrationId userId accountId) store.periods = false)
    (hended : store.hasOpenPeriod integrationId userId = false →
      ∀ p ∈ store.periods, p.isOf integrationId userId = true → ∀ e, p.endedAt = some e → e ≤ at_) :
    PeriodMove now begins store.periods store.nextId
      (store.beginPeriod at_ integrationId userId accountId).periods
      (store.beginPeriod at_ integrationId userId accountId).nextId := by
  have hbegun := startedAt_le_of_not_endsBeforeStart hcheck
  have hclose : PeriodMove now begins store.periods store.nextId
      (closePeriods at_ (·.ofOtherAccount integrationId userId accountId) store.periods) store.nextId :=
    .close _ hle hbegun
  unfold ConnectionStore.beginPeriod
  dsimp only
  split
  · exact hclose
  rename_i hnone
  rw [Bool.not_eq_true, List.any_eq_false] at hnone
  refine .trans hclose (.begin_ accountId hle hbegins fun p hp hof => ?_)
  rcases mem_closePeriods hp with ⟨hold, _⟩ | ⟨q, _, _, _, rfl⟩
  · have hp' := hnone p hp
    rw [hof, Bool.true_and, AuthorizationPeriod.isOpen, Option.isNone_iff_eq_none] at hp'
    obtain ⟨e, he⟩ := Option.ne_none_iff_exists'.mp hp'
    refine ⟨e, he, ?_⟩
    cases hopen : store.hasOpenPeriod integrationId userId with
    | false => exact hended hopen p hold hof e he
    | true =>
      -- the open period is for another account, and it comes after `p`
      obtain ⟨q, hq, hboth⟩ := List.any_eq_true.mp hopen
      rw [Bool.and_eq_true] at hboth
      have hother : q.ofOtherAccount integrationId userId accountId = true := by
        by_contra hsame
        rw [Bool.not_eq_true] at hsame
        have hstays : q ∈ closePeriods at_ (·.ofOtherAccount integrationId userId accountId)
            store.periods :=
          Library.mem_updateWhere_of_false hq (Bool.and_eq_false_iff.mpr (.inr hsame))
        exact hnone q hstays (by rw [hboth.1, hboth.2, Bool.true_and])
      have hkey := AuthorizationPeriod.isOf_iff.mp hboth.1
      have hkey' := AuthorizationPeriod.isOf_iff.mp hof
      exact (h.ended_le_open hold hq (hkey'.1.trans hkey.1.symm) (hkey'.2.trans hkey.2.symm)
        (Option.isNone_iff_eq_none.mp hboth.2) he).trans (hbegun q hq hboth.2 hother)
  · exact ⟨at_, rfl, le_rfl⟩

/-- A connection changes the periods as `beginPeriod` does, and neither the integrations nor the users. -/
theorem connect_frame (row : UserConnection) :
    (store.connect now row).periods =
        (store.beginPeriod now row.integrationId row.userId row.accountId).periods ∧
      (store.connect now row).nextId =
        (store.beginPeriod now row.integrationId row.userId row.accountId).nextId ∧
      (store.connect now row).integrations = store.integrations ∧
      (store.connect now row).users = store.users := by
  have hput : ∀ st : ConnectionStore, (st.putConnection row).periods = st.periods ∧
      (st.putConnection row).nextId = st.nextId ∧
      (st.putConnection row).integrations = st.integrations ∧
      (st.putConnection row).users = st.users := by
    intro st
    unfold ConnectionStore.putConnection
    split
    · exact ⟨rfl, rfl, rfl, rfl⟩
    · exact ⟨rfl, rfl, rfl, rfl⟩
  unfold ConnectionStore.connect
  dsimp only
  split
  · obtain ⟨hp, hn, hi, hu⟩ := hput (store.takeSiteGrant row.integrationId row.userId)
    unfold ConnectionStore.beginPeriod
    rw [hp, hn]
    dsimp only [ConnectionStore.takeSiteGrant] at hi hu ⊢
    split
    · exact ⟨rfl, rfl, hi, hu⟩
    · exact ⟨rfl, rfl, hi, hu⟩
  · obtain ⟨hp, hn, hi, hu⟩ := hput store
    unfold ConnectionStore.beginPeriod
    rw [hp, hn]
    dsimp only
    split
    · exact ⟨rfl, rfl, hi, hu⟩
    · exact ⟨rfl, rfl, hi, hu⟩

theorem switchUser_move (h : PeriodsInOrder now store.periods store.nextId) (userId : Nat)
    (enabled : Bool) :
    PeriodMove now begins store.periods store.nextId (store.switchUser now userId enabled).periods
      (store.switchUser now userId enabled).nextId := by
  unfold ConnectionStore.switchUser
  dsimp only
  split
  · exact .refl _ _
  · exact h.move_close _

/-- What an accepted connection is: the checks it passed and the writes. -/
theorem upsertUserConnection_ok {integrationId userId : Nat} {identity : Option (String × String)}
    {kind : CredentialKind}
    (h : store.upsertUserConnection provider now integrationId userId identity kind = .ok store') :
    ∃ accountId displayName, store.userEnabled userId = true ∧
      store.integrationEnabled integrationId = true ∧
      (kind = .site → store.isConnector integrationId userId = true) ∧
      endsBeforeStart now (·.ofOtherAccount integrationId userId accountId) store.periods = false ∧
      store' = store.connect now
        { integrationId, userId, accountId, displayName, kind, enabled := true } := by
  unfold ConnectionStore.upsertUserConnection at h
  split at h
  · simp at h
  rename_i accountId displayName
  split at h
  · simp at h
  rename_i integration hauthorization
  obtain ⟨_, _, h⟩ := bind_eq_ok.mp h
  obtain ⟨_, hconnector, h⟩ := bind_eq_ok.mp h
  obtain ⟨_, _, h⟩ := bind_eq_ok.mp h
  obtain ⟨_, _, h⟩ := bind_eq_ok.mp h
  obtain ⟨_, _, h⟩ := bind_eq_ok.mp h
  split at h
  · cases h
  rename_i hbegun
  unfold ConnectionStore.authorization at hauthorization
  split at hauthorization
  · rename_i huser
    have hmem := List.mem_of_find?_eq_some hauthorization
    have hfound := List.find?_some hauthorization
    refine ⟨accountId, displayName, huser, List.any_eq_true.mpr ⟨integration, hmem, hfound⟩, ?_,
      Bool.not_eq_true _ ▸ hbegun, (Except.ok.inj h).symm⟩
    intro hkind
    have hcreated : ¬ (kind = .site ∧ integration.createdByUserId ≠ some userId) :=
      raiseIf_eq_ok.mp hconnector
    refine List.any_eq_true.mpr ⟨integration, hmem, ?_⟩
    rw [hfound, Bool.true_and, beq_iff_eq]
    by_contra hne
    exact hcreated ⟨hkind, hne⟩
  · cases hauthorization

/-- What holds of the tables, and of all tables that a call can return, holds after it. -/
theorem ConnectionStore.commit_holds {Inv : ConnectionStore → Prop}
    {result : Except Error ConnectionStore} (hs : Inv store)
    (hok : ∀ store', result = .ok store' → Inv store') : Inv (store.commit result) := by
  cases result with
  | error e => exact hs
  | ok store' => exact hok store' rfl

/-- **Every step moves the periods** in these ways only. -/
theorem ConnectionInvariant.move {s : ConnectionState} (h : ConnectionInvariant s) (op : ConnectionOp) :
    PeriodMove s.clock (BeginsAt s op) s.store.periods s.store.nextId
      (connectionStep provider s op).store.periods (connectionStep provider s op).store.nextId := by
  refine @ConnectionStore.commit_holds _ (fun st => PeriodMove s.clock (BeginsAt s op)
    s.store.periods s.store.nextId st.periods st.nextId) _ (.refl _ _) fun st hst => ?_
  cases op with
  | upsertSite resourceKey createdByUserId =>
    simp only [ConnectionOp.run, ConnectionStore.upsertSite] at hst
    split at hst
    · cases hst
    · split at hst
      · cases hst
      · split at hst
        · obtain rfl := Except.ok.inj hst
          exact .refl _ _
        · obtain rfl := Except.ok.inj hst
          exact .take _ _
  | disconnectIntegration integrationId readAt =>
    obtain ⟨_, _, hst⟩ := bind_eq_ok.mp hst
    split at hst
    · cases hst
    rename_i hbegun
    obtain rfl := Except.ok.inj hst
    rw [Bool.not_eq_true] at hbegun
    exact .close _ (min_le_right _ _) (startedAt_le_of_not_endsBeforeStart hbegun)
  | deleteUnconfigured integrationId configured =>
    obtain rfl := Except.ok.inj hst
    unfold ConnectionStore.deleteUnconfigured
    split
    · exact .refl _ _
    · exact .drop _ _ _
  | setIntegrationEnabled integrationId enabled =>
    obtain ⟨_, _, hst⟩ := bind_eq_ok.mp hst
    obtain rfl := Except.ok.inj hst
    exact .refl _ _
  | setSiteCredential integrationId present =>
    obtain rfl := Except.ok.inj hst
    unfold ConnectionStore.setSiteCredential
    split_ifs <;> exact .refl _ _
  | setMemberCredential integrationId userId present =>
    obtain rfl := Except.ok.inj hst
    unfold ConnectionStore.setMemberCredential
    split_ifs <;> exact .refl _ _
  | upsertUserConnection call =>
    simp only [ConnectionOp.run] at hst
    split at hst
    · rename_i hcall
      obtain ⟨accountId, displayName, huser, hintegration, _, hcheck, rfl⟩ := upsertUserConnection_ok hst
      have hsides : s.store.sidesEnabled call.integrationId call.userId = true := by
        rw [ConnectionStore.sidesEnabled, hintegration, huser, Bool.true_and]
      have hof : call.isOf call.integrationId call.userId = true := by
        simp [ConnectionCall.isOf]
      rw [(connect_frame _).1, (connect_frame _).2.1]
      exact beginPeriod_move h.periods (h.calls call hcall).read ⟨call, hcall, rfl, hof, rfl, hsides⟩
        hcheck ((h.calls call hcall).ended hsides)
    · obtain rfl := Except.ok.inj hst
      exact .refl _ _
  | disconnectUser integrationId userId =>
    simp only [ConnectionOp.run, ConnectionStore.disconnectUser] at hst
    split at hst
    · cases hst
    · obtain ⟨_, _, hst⟩ := bind_eq_ok.mp hst
      obtain rfl := Except.ok.inj hst
      exact h.periods.move_close _
  | setUserEnabled userId enabled =>
    obtain ⟨_, _, hst⟩ := bind_eq_ok.mp hst
    obtain rfl := Except.ok.inj hst
    exact switchUser_move h.periods userId enabled
  | updateScimUser userId enabled =>
    obtain rfl := Except.ok.inj hst
    unfold ConnectionStore.updateScimUser
    split
    · exact switchUser_move h.periods userId enabled
    · exact .refl _ _
  | _ =>
    obtain rfl := Except.ok.inj hst
    exact .refl _ _

/-- The integrations and the connections refer to what they referred to, or to the integration that the
step has just numbered or has found enabled. -/
structure Refers (store store' : ConnectionStore) : Prop where
  integrations : ∀ r' ∈ store'.integrations, (∃ r ∈ store.integrations, r.id = r'.id) ∨
    r'.id < store'.nextId
  connections : ∀ c' ∈ store'.connections,
    (∃ c ∈ store.connections, c.integrationId = c'.integrationId) ∨
      store.integrationEnabled c'.integrationId = true

theorem Refers.of_eq (hintegrations : store'.integrations = store.integrations)
    (hconnections : store'.connections = store.connections) : Refers store store' := by
  refine ⟨fun r hr => .inl ⟨r, ?_, rfl⟩, fun c hc => .inl ⟨c, ?_, rfl⟩⟩
  · exact hintegrations ▸ hr
  · exact hconnections ▸ hc

theorem Refers.of_filter {keep : UserConnection → Bool}
    (hintegrations : store'.integrations = store.integrations)
    (hconnections : store'.connections = store.connections.filter keep) : Refers store store' := by
  refine ⟨fun r hr => .inl ⟨r, hintegrations ▸ hr, rfl⟩, fun c hc => ?_⟩
  rw [hconnections] at hc
  exact .inl ⟨c, (List.mem_filter.mp hc).1, rfl⟩

theorem refers_connect (row : UserConnection)
    (hintegration : store.integrationEnabled row.integrationId = true) :
    Refers store (store.connect now row) := by
  have hput : ∀ st : ConnectionStore,
      (∀ c' ∈ st.connections, ∃ c ∈ store.connections, c.integrationId = c'.integrationId) →
      ∀ c' ∈ (st.putConnection row).connections,
        (∃ c ∈ store.connections, c.integrationId = c'.integrationId) ∨
          store.integrationEnabled c'.integrationId = true := by
    intro st hst c' hc'
    unfold ConnectionStore.putConnection at hc'
    split at hc'
    · rcases Library.mem_updateWhere_cases hc' with ⟨hold, _⟩ | ⟨c, _, _, rfl⟩
      · exact .inl (hst c' hold)
      · exact .inr hintegration
    · rcases List.mem_append.mp hc' with hold | hnew
      · exact .inl (hst c' hold)
      · rw [List.mem_singleton.mp hnew]
        exact .inr hintegration
  have hbegin : ∀ st : ConnectionStore,
      (st.beginPeriod now row.integrationId row.userId row.accountId).connections = st.connections := by
    intro st
    unfold ConnectionStore.beginPeriod
    dsimp only
    split
    · rfl
    · rfl
  refine ⟨fun r hr => .inl ⟨r, (connect_frame row).2.2.1 ▸ hr, rfl⟩, fun c hc => ?_⟩
  unfold ConnectionStore.connect at hc
  rw [hbegin] at hc
  split at hc
  · refine hput _ (fun c' hc' => ?_) c hc
    exact Library.mem_updateWhere_key UserConnection.integrationId hc' fun _ => rfl
  · exact hput _ (fun c' hc' => ⟨c', hc', rfl⟩) c hc

theorem refers_switchUser (userId : Nat) (enabled : Bool) :
    Refers store (store.switchUser now userId enabled) := by
  unfold ConnectionStore.switchUser
  dsimp only
  split
  · exact .of_eq rfl rfl
  · exact .of_filter rfl rfl

/-- **An accepted call refers to what is there.** -/
theorem refers_run {s : ConnectionState} {op : ConnectionOp} (h : op.run provider s = .ok store') :
    Refers s.store store' := by
  cases op with
  | upsertSite resourceKey createdByUserId =>
    simp only [ConnectionOp.run, ConnectionStore.upsertSite] at h
    split at h
    · cases h
    split at h
    · cases h
    split at h
    · obtain rfl := Except.ok.inj h
      exact ⟨fun r hr => .inl (Library.mem_updateWhere_key (·.id) hr fun _ => rfl),
        fun c hc => .inl ⟨c, hc, rfl⟩⟩
    · obtain rfl := Except.ok.inj h
      refine ⟨fun r hr => ?_, fun c hc => .inl ⟨c, hc, rfl⟩⟩
      rcases List.mem_append.mp hr with hold | hnew
      · exact .inl ⟨r, hold, rfl⟩
      · rw [List.mem_singleton.mp hnew]
        exact .inr (Nat.lt_succ_self _)
  | disconnectIntegration integrationId readAt =>
    obtain ⟨_, _, h⟩ := bind_eq_ok.mp h
    split at h
    · cases h
    obtain rfl := Except.ok.inj h
    exact ⟨fun r hr => .inl (Library.mem_updateWhere_key (·.id) hr fun _ => rfl),
      fun c hc => .inl ⟨c, (List.mem_filter.mp hc).1, rfl⟩⟩
  | deleteUnconfigured integrationId configured =>
    obtain rfl := Except.ok.inj h
    unfold ConnectionStore.deleteUnconfigured
    split
    · exact .of_eq rfl rfl
    · exact ⟨fun r hr => .inl ⟨r, (List.mem_filter.mp hr).1, rfl⟩,
        fun c hc => .inl ⟨c, (List.mem_filter.mp hc).1, rfl⟩⟩
  | setIntegrationEnabled integrationId enabled =>
    obtain ⟨_, _, h⟩ := bind_eq_ok.mp h
    obtain rfl := Except.ok.inj h
    exact ⟨fun r hr => .inl (Library.mem_updateWhere_key (·.id) hr fun _ => rfl),
      fun c hc => .inl ⟨c, hc, rfl⟩⟩
  | setSiteCredential integrationId present =>
    obtain rfl := Except.ok.inj h
    unfold ConnectionStore.setSiteCredential
    split_ifs <;> exact .of_eq rfl rfl
  | setMemberCredential integrationId userId present =>
    obtain rfl := Except.ok.inj h
    unfold ConnectionStore.setMemberCredential
    split_ifs <;> exact .of_eq rfl rfl
  | upsertUserConnection call =>
    simp only [ConnectionOp.run] at h
    split at h
    · obtain ⟨accountId, displayName, _, hintegration, _, _, rfl⟩ := upsertUserConnection_ok h
      exact refers_connect _ hintegration
    · obtain rfl := Except.ok.inj h
      exact .of_eq rfl rfl
  | disconnectUser integrationId userId =>
    simp only [ConnectionOp.run, ConnectionStore.disconnectUser] at h
    split at h
    · cases h
    obtain ⟨_, _, h⟩ := bind_eq_ok.mp h
    obtain rfl := Except.ok.inj h
    exact .of_filter rfl rfl
  | setUserEnabled userId enabled =>
    obtain ⟨_, _, h⟩ := bind_eq_ok.mp h
    obtain rfl := Except.ok.inj h
    exact refers_switchUser userId enabled
  | updateScimUser userId enabled =>
    obtain rfl := Except.ok.inj h
    unfold ConnectionStore.updateScimUser
    split
    · exact refers_switchUser userId enabled
    · exact .of_eq rfl rfl
  | _ =>
    obtain rfl := Except.ok.inj h
    exact .of_eq rfl rfl

theorem ConnectionOp.clock_le (clock : Int) (op : ConnectionOp) : clock ≤ op.clockAfter clock := by
  cases op with
  | tick now => exact le_max_left _ _
  | _ => exact le_rfl

/-! ## Calls in flight -/

/-- What a step leaves to a user at an integration: no side has been switched on, and where no period is
open and the sides are on, none has been ended. -/
structure Undisturbed (store store' : ConnectionStore) (i u : Nat) : Prop where
  sides : store'.sidesEnabled i u = true → store.sidesEnabled i u = true
  ended : store'.sidesEnabled i u = true → store'.hasOpenPeriod i u = false →
    store.hasOpenPeriod i u = false ∧
      ∀ p ∈ store'.periods, p.isOf i u = true → p.endedAt ≠ none → p ∈ store.periods

theorem Undisturbed.of_off {i u : Nat} (h : store'.sidesEnabled i u = false) :
    Undisturbed store store' i u :=
  ⟨fun hon => absurd hon (by rw [h]; decide), fun hon => absurd hon (by rw [h]; decide)⟩

/-- The periods of the user are the same. -/
theorem Undisturbed.of_rows {i u : Nat}
    (hsides : store'.sidesEnabled i u = true → store.sidesEnabled i u = true)
    (hrows : ∀ p, p.isOf i u = true → (p ∈ store'.periods ↔ p ∈ store.periods)) :
    Undisturbed store store' i u := by
  refine ⟨hsides, fun _ hnone => ⟨?_, fun p hp hof _ => (hrows p hof).mp hp⟩⟩
  refine List.any_eq_false.mpr fun p hp hboth => ?_
  have hof := (Bool.and_eq_true _ _ ▸ hboth).1
  exact List.any_eq_false.mp hnone p ((hrows p hof).mpr hp) hboth

theorem Undisturbed.of_eq {i u : Nat} (hintegrations : store'.integrations = store.integrations)
    (husers : store'.users = store.users) (hperiods : store'.periods = store.periods) :
    Undisturbed store store' i u := by
  refine .of_rows (fun hon => ?_) fun p _ => by rw [hperiods]
  unfold ConnectionStore.sidesEnabled ConnectionStore.integrationEnabled ConnectionStore.userEnabled at *
  rw [← hintegrations, ← husers]
  exact hon

theorem sidesEnabled_of {i u : Nat} (husers : store'.users = store.users)
    (hintegration : store'.integrationEnabled i = true → store.integrationEnabled i = true)
    (hon : store'.sidesEnabled i u = true) : store.sidesEnabled i u = true := by
  rw [ConnectionStore.sidesEnabled, Bool.and_eq_true, ConnectionStore.userEnabled] at hon ⊢
  exact ⟨hintegration hon.1, husers ▸ hon.2⟩

/-- Ending the periods of others leaves a row where it is. -/
theorem mem_closePeriods_of_other {at_ : Int} {where_ : AuthorizationPeriod → Bool}
    {periods : List AuthorizationPeriod} {i u : Nat}
    (hother : ∀ p : AuthorizationPeriod, p.isOf i u = true → where_ p = false)
    {p : AuthorizationPeriod} (hof : p.isOf i u = true) :
    p ∈ closePeriods at_ where_ periods ↔ p ∈ periods := by
  refine ⟨fun hp => ?_, fun hp => ?_⟩
  · rcases mem_closePeriods hp with ⟨hold, _⟩ | ⟨q, _, _, hwhere, rfl⟩
    · exact hold
    · have hq : where_ q = false := hother q hof
      rw [hwhere] at hq
      cases hq
  · exact Library.mem_updateWhere_of_false hp (Bool.and_eq_false_iff.mpr (.inr (hother p hof)))

theorem isOf_eq_false_of_ne {i u i₀ u₀ : Nat} (hne : ¬ (i = i₀ ∧ u = u₀)) (p : AuthorizationPeriod)
    (hof : p.isOf i u = true) : p.isOf i₀ u₀ = false := by
  rw [← Bool.not_eq_true, AuthorizationPeriod.isOf_iff]
  obtain ⟨rfl, rfl⟩ := AuthorizationPeriod.isOf_iff.mp hof
  exact hne

/-- Switching the user on or off disturbs none whom it does not switch on. -/
theorem undisturbed_switchUser {u₀ : Nat} {enabled : Bool} {i u : Nat}
    (hguard : enabled = true → u = u₀ → store.userEnabled u = true) :
    Undisturbed store (store.switchUser now u₀ enabled) i u := by
  have hany := enabled_switchUser store.users u u₀ enabled
  unfold ConnectionStore.switchUser
  cases enabled with
  | true =>
    refine .of_rows (fun hon => ?_) fun p _ => Iff.rfl
    rw [ConnectionStore.sidesEnabled, Bool.and_eq_true] at hon ⊢
    refine ⟨hon.1, ?_⟩
    by_cases hu : u = u₀
    · exact hguard rfl hu
    · rw [if_neg hu] at hany
      exact hany.symm.trans hon.2
  | false =>
    by_cases hu : u = u₀
    · rw [if_pos hu, Bool.false_and] at hany
      exact .of_off (Bool.and_eq_false_iff.mpr (.inr hany))
    · rw [if_neg hu] at hany
      refine .of_rows (fun hon => ?_) fun p hof => mem_closePeriods_of_other (fun p hof => ?_) hof
      · rw [ConnectionStore.sidesEnabled, Bool.and_eq_true] at hon ⊢
        exact ⟨hon.1, hany.symm.trans hon.2⟩
      · rw [(AuthorizationPeriod.isOf_iff.mp hof).2]
        exact beq_false_of_ne hu

/-- Switching an integration on or off disturbs none of those at it that it does not switch on. -/
theorem undisturbed_switchIntegration {i₀ : Nat} {enabled : Bool} {i u : Nat}
    (hintegrations : store'.integrations =
      updateWhere (·.id == i₀) (fun r => { r with enabled }) store.integrations)
    (husers : store'.users = store.users)
    (hguard : enabled = true → i = i₀ → store.integrationEnabled i = true)
    (hrows : i ≠ i₀ ∨ enabled = true → ∀ p, p.isOf i u = true → (p ∈ store'.periods ↔ p ∈ store.periods)) :
    Undisturbed store store' i u := by
  have hany := enabled_switchIntegration store.integrations i i₀ enabled
  rw [← hintegrations] at hany
  by_cases hi : i = i₀
  · rw [if_pos hi] at hany
    cases enabled with
    | false => exact .of_off (Bool.and_eq_false_iff.mpr (.inl hany))
    | true => exact .of_rows (sidesEnabled_of husers fun _ => hguard rfl hi) (hrows (.inr rfl))
  · rw [if_neg hi] at hany
    exact .of_rows (sidesEnabled_of husers hany.symm.trans) (hrows (.inl hi))

/-- Connecting an account leaves the rows of the others, and its own user has an open period. -/
theorem undisturbed_connect (row : UserConnection) {i u : Nat} :
    Undisturbed store (store.connect now row) i u := by
  obtain ⟨hperiods, _, hintegrations, husers⟩ := @connect_frame store now row
  have hon : (store.connect now row).sidesEnabled i u = true → store.sidesEnabled i u = true :=
    sidesEnabled_of husers fun hon => by
      rw [ConnectionStore.integrationEnabled, hintegrations] at hon
      exact hon
  by_cases hkey : i = row.integrationId ∧ u = row.userId
  · refine ⟨hon, fun _ hnone => ?_⟩
    have hopen := @hasOpenPeriod_beginPeriod now store row.integrationId row.userId
      row.integrationId row.userId row.accountId
    rw [ConnectionStore.hasOpenPeriod, hperiods, hkey.1, hkey.2] at hnone
    rw [ConnectionStore.hasOpenPeriod, hnone] at hopen
    simp at hopen
  · refine .of_rows hon fun p hof => ?_
    have hother := isOf_eq_false_of_ne hkey
    have hclose := @mem_closePeriods_of_other now
      (·.ofOtherAccount row.integrationId row.userId row.accountId) store.periods _ _
      (fun p hof => Bool.and_eq_false_iff.mpr (.inl (hother p hof))) p hof
    rw [hperiods]
    unfold ConnectionStore.beginPeriod
    dsimp only
    split
    · exact hclose
    · rw [List.mem_append, hclose]
      refine or_iff_left fun hnew => ?_
      have hp := hother p hof
      rw [List.mem_singleton.mp hnew] at hp
      simp [AuthorizationPeriod.isOf] at hp

/-- **A connecting call in flight is undisturbed** by a step that meets the condition. -/
theorem undisturbed_step {s : ConnectionState} (hinv : ConnectionInvariant s) {op : ConnectionOp}
    (hkeep : keepsConsent s op = true) {call : ConnectionCall} (hcall : call ∈ s.calls) :
    Undisturbed s.store (connectionStep provider s op).store call.integrationId call.userId := by
  refine @ConnectionStore.commit_holds _ (fun st => Undisturbed s.store st call.integrationId
    call.userId) _ (.of_eq rfl rfl rfl) fun store' hok => ?_
  have huser : ∀ u, s.mayEnableUser u = true → call.userId = u →
      s.store.userEnabled call.userId = true := by
    rintro u hmay rfl
    have hflight : s.calls.any (·.userId == call.userId) = true :=
      List.any_eq_true.mpr ⟨call, hcall, beq_self_eq_true _⟩
    simpa [ConnectionState.mayEnableUser, hflight] using hmay
  cases op with
  | upsertSite resourceKey createdByUserId =>
    simp only [ConnectionOp.run, ConnectionStore.upsertSite] at hok
    split at hok
    · cases hok
    rename_i resourceKey
    split at hok
    · cases hok
    split at hok
    · obtain rfl := Except.ok.inj hok
      refine .of_rows (sidesEnabled_of rfl fun hon => ?_) fun p _ => Iff.rfl
      obtain ⟨r', hr', hboth⟩ := List.any_eq_true.mp hon
      rcases Library.mem_updateWhere_cases hr' with ⟨hold, _⟩ | ⟨r, hr, hkey, rfl⟩
      · exact List.any_eq_true.mpr ⟨r', hold, hboth⟩
      · -- the row is switched on, so it was on before, as a call is in flight there
        have hid : (r.id == call.integrationId) = true := (Bool.and_eq_true _ _ ▸ hboth).1
        have hflight : s.calls.any (·.integrationId == r.id) = true :=
          List.any_eq_true.mpr ⟨call, hcall, BEq.symm hid⟩
        have hr' := List.all_eq_true.mp hkeep r hr
        simp only [bne, hkey, hflight, Bool.or_true, Bool.not_true, Bool.false_or, Bool.or_false] at hr'
        exact List.any_eq_true.mpr ⟨r, hr, by rw [hid, hr', Bool.true_and]⟩
    · obtain rfl := Except.ok.inj hok
      refine .of_rows (sidesEnabled_of rfl fun hon => ?_) fun p _ => Iff.rfl
      rw [ConnectionStore.integrationEnabled, List.any_append, Bool.or_eq_true] at hon
      rcases hon with hold | hnew
      · exact hold
      · have hlt := (hinv.calls call hcall).known
        simp [Nat.ne_of_gt hlt] at hnew
  | disconnectIntegration integrationId readAt =>
    obtain ⟨_, _, hok⟩ := bind_eq_ok.mp hok
    split at hok
    · cases hok
    obtain rfl := Except.ok.inj hok
    refine undisturbed_switchIntegration rfl rfl (fun hon => absurd hon Bool.false_ne_true) fun hi p hof =>
      mem_closePeriods_of_other (fun p hof => ?_) hof
    rw [(AuthorizationPeriod.isOf_iff.mp hof).1]
    exact beq_false_of_ne (hi.resolve_right Bool.false_ne_true)
  | deleteUnconfigured integrationId configured =>
    obtain rfl := Except.ok.inj hok
    unfold ConnectionStore.deleteUnconfigured
    split
    · exact .of_eq rfl rfl rfl
    by_cases hi : call.integrationId = integrationId
    · refine .of_off (Bool.and_eq_false_iff.mpr (.inl (List.any_eq_false.mpr fun r hr hboth => ?_)))
      have hid := (List.mem_filter.mp hr).2
      simp_all
    · refine .of_rows (sidesEnabled_of rfl fun hon => ?_) fun p hof => ?_
      · obtain ⟨r, hr, hboth⟩ := List.any_eq_true.mp hon
        exact List.any_eq_true.mpr ⟨r, (List.mem_filter.mp hr).1, hboth⟩
      · rw [List.mem_filter, (AuthorizationPeriod.isOf_iff.mp hof).1]
        exact and_iff_left (bne_iff_ne.mpr hi)
  | setIntegrationEnabled integrationId enabled =>
    obtain ⟨_, _, hok⟩ := bind_eq_ok.mp hok
    obtain rfl := Except.ok.inj hok
    refine undisturbed_switchIntegration rfl rfl (fun hon hi => ?_) fun _ p _ => Iff.rfl
    subst hon hi
    have hflight : s.calls.any (·.integrationId == call.integrationId) = true :=
      List.any_eq_true.mpr ⟨call, hcall, beq_self_eq_true _⟩
    have hmay : s.mayEnableIntegration call.integrationId = true := hkeep
    simpa [ConnectionState.mayEnableIntegration, hflight] using hmay
  | setSiteCredential integrationId present =>
    obtain rfl := Except.ok.inj hok
    unfold ConnectionStore.setSiteCredential
    split_ifs <;> exact .of_eq rfl rfl rfl
  | setMemberCredential integrationId userId present =>
    obtain rfl := Except.ok.inj hok
    unfold ConnectionStore.setMemberCredential
    split_ifs <;> exact .of_eq rfl rfl rfl
  | upsertUserConnection call' =>
    simp only [ConnectionOp.run] at hok
    split at hok
    · obtain ⟨_, _, _, _, _, _, rfl⟩ := upsertUserConnection_ok hok
      exact undisturbed_connect _
    · obtain rfl := Except.ok.inj hok
      exact .of_eq rfl rfl rfl
  | disconnectUser integrationId userId =>
    simp only [ConnectionOp.run, ConnectionStore.disconnectUser] at hok
    split at hok
    · cases hok
    obtain ⟨_, _, hok⟩ := bind_eq_ok.mp hok
    obtain rfl := Except.ok.inj hok
    refine .of_rows (sidesEnabled_of rfl id) fun p hof => mem_closePeriods_of_other ?_ hof
    refine isOf_eq_false_of_ne fun hkey => ?_
    -- the call that is in flight connects this account
    have hflight : s.connecting integrationId userId = true :=
      List.any_eq_true.mpr ⟨call, hcall, by simp [ConnectionCall.isOf, hkey]⟩
    have hkeep' : (!s.connecting integrationId userId) = true := hkeep
    rw [hflight] at hkeep'
    cases hkeep'
  | setUserEnabled userId enabled =>
    obtain ⟨_, _, hok⟩ := bind_eq_ok.mp hok
    obtain rfl := Except.ok.inj hok
    refine undisturbed_switchUser fun hon => huser _ ?_
    subst hon
    exact hkeep
  | updateScimUser userId enabled =>
    obtain rfl := Except.ok.inj hok
    unfold ConnectionStore.updateScimUser
    split
    · refine undisturbed_switchUser fun hon => huser _ ?_
      subst hon
      exact hkeep
    · exact .of_eq rfl rfl rfl
  | _ =>
    obtain rfl := Except.ok.inj hok
    exact .of_eq rfl rfl rfl

/-- A call in flight was so before, or it has just read the clock and changed nothing. -/
theorem mem_callsAfter {s : ConnectionState} {op : ConnectionOp} {call : ConnectionCall}
    (h : call ∈ op.callsAfter s) : call ∈ s.calls ∨ call.readAt = s.clock ∧
      (∃ r ∈ s.store.integrations, r.id = call.integrationId) ∧
      (connectionStep provider s op).store = s.store := by
  cases op with
  | callUserConnection integrationId userId identity kind =>
    simp only [ConnectionOp.callsAfter] at h
    split at h
    · rename_i hknown
      rcases List.mem_append.mp h with hold | hnew
      · exact .inl hold
      · obtain rfl := List.mem_singleton.mp hnew
        rw [Bool.and_eq_true] at hknown
        obtain ⟨r, hr, hid⟩ := List.any_eq_true.mp hknown.2
        exact .inr ⟨rfl, ⟨r, hr, beq_iff_eq.mp hid⟩, rfl⟩
    · exact .inl h
  | upsertUserConnection call' => exact .inl (List.mem_of_mem_erase h)
  | loseCall call' => exact .inl (List.mem_of_mem_erase h)
  | _ => exact .inl h

/-- **A step that meets the condition keeps the invariant.** -/
theorem ConnectionInvariant.step {s : ConnectionState} (h : ConnectionInvariant s)
    {op : ConnectionOp} (hkeep : keepsConsent s op = true) :
    ConnectionInvariant (connectionStep provider s op) := by
  have hmove := @ConnectionInvariant.move provider s h op
  have hrefers : Refers s.store (connectionStep provider s op).store :=
    ConnectionStore.commit_holds (.of_eq rfl rfl) fun _ hok => refers_run hok
  have hknown : ∀ i, s.store.integrationEnabled i = true → i < s.store.nextId := by
    intro i hi
    obtain ⟨r, hr, hboth⟩ := List.any_eq_true.mp hi
    rw [Bool.and_eq_true, beq_iff_eq] at hboth
    exact hboth.1 ▸ h.integrations r hr
  refine ⟨(h.periods.move hmove).later (op.clock_le s.clock), fun r hr => ?_, fun c hc => ?_,
    fun call hcall => ?_⟩
  · rcases hrefers.integrations r hr with ⟨r', hr', hid⟩ | hlt
    · exact Nat.lt_of_lt_of_le (hid ▸ h.integrations r' hr') hmove.next_le
    · exact hlt
  · rcases hrefers.connections c hc with ⟨c', hc', hid⟩ | henabled
    · exact Nat.lt_of_lt_of_le (hid ▸ h.connections c' hc') hmove.next_le
    · exact Nat.lt_of_lt_of_le (hknown _ henabled) hmove.next_le
  · rcases @mem_callsAfter provider s op call hcall with hold | ⟨hread, ⟨r, hr, hid⟩, hstore⟩
    · have hc := h.calls call hold
      have hu := @undisturbed_step provider s h op hkeep call hold
      refine ⟨Nat.lt_of_lt_of_le hc.known hmove.next_le, hc.read.trans (op.clock_le s.clock), ?_⟩
      intro hon hnone p hp hof e he
      obtain ⟨hnone', hsame⟩ := hu.ended hon hnone
      have hended : p.endedAt ≠ none := by rw [he]; exact Option.some_ne_none e
      exact hc.ended (hu.sides hon) hnone' p (hsame p hp hof hended) hof e he
    · refine ⟨hstore ▸ hid ▸ h.integrations r hr, hread ▸ op.clock_le s.clock, ?_⟩
      intro _ _ p hp _ e he
      rw [hstore] at hp
      exact hread ▸ (h.periods.ended p hp e he).2

/-- The instant is past, no period of the user at the integration has it, and no call in flight begins one
that does. -/
structure LeftOut (integrationId userId : Nat) (t : Int) (s : ConnectionState) : Prop where
  past : t < s.clock
  uncovered : Uncovered integrationId userId t (t + 1) s.store.periods
  calls : ∀ call ∈ s.calls, call.isOf integrationId userId = true →
    t < call.readAt ∨ s.store.sidesEnabled integrationId userId = false

/-- **An instant that is left out stays so** under a step that meets the condition. -/
theorem LeftOut.step {s : ConnectionState} {i u : Nat} {t : Int} (h : LeftOut i u t s)
    (hinv : ConnectionInvariant s) {op : ConnectionOp} (hkeep : keepsConsent s op = true) :
    LeftOut i u t (connectionStep provider s op) where
  past := lt_of_lt_of_le h.past (op.clock_le s.clock)
  uncovered := by
    refine h.uncovered.move (hinv.move op) ?_
    rintro _ ⟨call, hcall, _, hof, rfl, hon⟩
    rcases h.calls call hcall hof with hlater | hoff
    · exact hlater
    · rw [hon] at hoff
      cases hoff
  calls := by
    intro call hcall hof
    rcases @mem_callsAfter provider s op call hcall with hold | ⟨hread, _, _⟩
    · refine (h.calls call hold hof).imp_right fun hoff => ?_
      have hu := @undisturbed_step provider s hinv op hkeep call hold
      rw [ConnectionCall.isOf, Bool.and_eq_true, beq_iff_eq, beq_iff_eq] at hof
      rw [hof.1, hof.2] at hu
      by_contra hon
      rw [hu.sides (Bool.not_eq_false _ ▸ hon)] at hoff
      cases hoff
    · exact .inl (hread ▸ h.past)

/-- **A step that meets the condition keeps the equivalence.** -/
theorem Consents.step {s : ConnectionState} (hinv : ConnectionInvariant s) (h : Consents s.store)
    {op : ConnectionOp} (hkeep : keepsConsent s op = true) :
    Consents (connectionStep provider s op).store := by
  refine ConnectionStore.commit_holds h fun store' hok => ?_
  have hmay : ∀ u, s.mayEnableUser u = true → s.store.userEnabled u = true ∨ s.store.waitsFor u = false := by
    intro u hu
    simp only [ConnectionState.mayEnableUser, Bool.or_eq_true, Bool.not_or, Bool.and_eq_true,
      Bool.not_eq_true'] at hu
    exact hu.imp_right And.left
  cases op with
  | upsertSite resourceKey createdByUserId =>
    cases resourceKey with
    | none => cases hok
    | some resourceKey =>
      have hok' : s.store.upsertSite provider (some resourceKey) createdByUserId = .ok store' := hok
      refine h.upsertSite hinv.connections (fun r hr hkey hoff => ?_) hok'
      have hr' := List.all_eq_true.mp hkeep r hr
      rw [hkey, hoff] at hr'
      simp only [bne_self_eq_false, Bool.false_or, Bool.not_or, Bool.and_eq_true,
        Bool.not_eq_true'] at hr'
      exact hr'.1
  | disconnectIntegration integrationId readAt =>
    have hok' : s.store.disconnectIntegration provider (min readAt s.clock) integrationId = .ok store' :=
      hok
    exact h.disconnectIntegration hok'
  | deleteUnconfigured integrationId configured =>
    obtain rfl := Except.ok.inj hok
    exact h.deleteUnconfigured configured
  | setIntegrationEnabled integrationId enabled =>
    refine h.setIntegrationEnabled ?_ hok
    cases enabled with
    | true =>
      have hkeep' : s.mayEnableIntegration integrationId = true := hkeep
      simp only [ConnectionState.mayEnableIntegration, Bool.or_eq_true, Bool.not_or, Bool.and_eq_true,
        Bool.not_eq_true'] at hkeep'
      exact hkeep'.imp_right And.left
    | false =>
      have hkeep' : (!s.store.waitsAt integrationId || !s.store.integrationEnabled integrationId) = true :=
        hkeep
      rw [Bool.or_eq_true, Bool.not_eq_true', Bool.not_eq_true'] at hkeep'
      exact hkeep'.symm
  | setSiteCredential integrationId present =>
    obtain rfl := Except.ok.inj hok
    unfold ConnectionStore.setSiteCredential
    split_ifs <;> exact h
  | setMemberCredential integrationId userId present =>
    obtain rfl := Except.ok.inj hok
    unfold ConnectionStore.setMemberCredential
    split_ifs <;> exact h
  | upsertUserConnection call =>
    simp only [ConnectionOp.run] at hok
    split at hok
    · obtain ⟨accountId, displayName, huser, hintegration, hconnector, _, rfl⟩ :=
        upsertUserConnection_ok hok
      refine h.connect _ rfl hintegration huser fun hsite => ?_
      have hkeep' : (call.kind != .site ||
        !s.store.isConnector call.integrationId call.userId ||
        !s.store.grantHeldByOther call.integrationId call.userId) = true := hkeep
      have hkind : call.kind = .site := hsite
      rw [hconnector hkind, hkind] at hkeep'
      simpa using hkeep'
    · obtain rfl := Except.ok.inj hok
      exact h
  | disconnectUser integrationId userId =>
    have hok' : s.store.disconnectUser provider s.clock integrationId userId = .ok store' := hok
    exact h.disconnectUser hok'
  | setUserEnabled userId enabled =>
    obtain ⟨_, _, hok⟩ := bind_eq_ok.mp hok
    obtain rfl := Except.ok.inj hok
    refine h.switchUser enabled fun hon => hmay userId ?_
    subst hon
    exact hkeep
  | updateScimUser userId enabled =>
    obtain rfl := Except.ok.inj hok
    unfold ConnectionStore.updateScimUser
    split
    · refine h.switchUser enabled fun hon => hmay userId ?_
      subst hon
      exact hkeep
    · exact h
  | _ =>
    obtain rfl := Except.ok.inj hok
    exact h

end

/-! ## Runs -/

/-- The instant lies in the period. -/
def AuthorizationPeriod.covers (p : AuthorizationPeriod) (t : Int) : Prop :=
  p.startedAt ≤ t ∧ ∀ e ∈ p.endedAt, t < e

instance decidableCovers (p : AuthorizationPeriod) (t : Int) : Decidable (p.covers t) :=
  inferInstanceAs (Decidable (_ ∧ ∀ e ∈ p.endedAt, t < e))

/-- Two periods share no instant. -/
def AuthorizationPeriod.Apart (p q : AuthorizationPeriod) : Prop := ∀ t, ¬ (p.covers t ∧ q.covers t)

theorem Precedes.apart {p q : AuthorizationPeriod} (h : Precedes p q)
    (hi : p.integrationId = q.integrationId) (hu : p.userId = q.userId) : p.Apart q := by
  rintro t ⟨hp, hq⟩
  obtain ⟨e, he, hle⟩ := h hi hu
  have hlt := hp.2 e he
  have hbegun := hq.1
  omega

/-- The state before any integration is connected. -/
def ConnectionState.withoutIntegrations (s : ConnectionState) : ConnectionState :=
  { s with store := s.store.withoutIntegrations, calls := [] }

theorem connectionInvariant_start (s : ConnectionState) :
    ConnectionInvariant s.withoutIntegrations where
  periods := ⟨List.Pairwise.nil, nofun, nofun, .nil _ _⟩
  integrations := nofun
  connections := nofun
  calls := nofun

/-- **Consent.** A period of a user at an integration is open exactly while the connection, the integration
and the user are enabled; the periods of a user share no instant; one that has been closed stays as it
is, or goes with its integration; and no instant that passes without consent lies in a period, then or
ever after. Consent to be withdrawn is given with the call that connects: its period begins at the clock
it has read. -/
structure ConsentKept (provider : CloudProvider) (start : ConnectionState) (ops : List ConnectionOp) :
    Prop where
  open_iff : ∀ integrationId userId,
    (run (connectionStep provider) start ops).store.hasOpenPeriod integrationId userId =
      (run (connectionStep provider) start ops).store.consented integrationId userId
  apart : (run (connectionStep provider) start ops).store.periods.Pairwise fun p q =>
    p.integrationId = q.integrationId → p.userId = q.userId → p.Apart q
  closed : ∀ before after, ops = before ++ after →
    ∀ q ∈ (run (connectionStep provider) start before).store.periods, q.endedAt ≠ none →
    ∀ p ∈ (run (connectionStep provider) start ops).store.periods, p.id = q.id → p = q
  withdrawn : ∀ before now after, ops = before ++ .tick now :: after →
    ∀ integrationId userId,
    (run (connectionStep provider) start before).consents integrationId userId = false →
    ∀ t, (run (connectionStep provider) start before).clock ≤ t → t < now →
    ∀ p ∈ (run (connectionStep provider) start ops).store.periods,
    p.integrationId = integrationId → p.userId = userId → ¬ p.covers t

/-- **Consent is kept** in every run whose steps all meet the condition, for either provider and any
members, from the state before an integration is connected. -/
theorem consent_kept (provider : CloudProvider) (s : ConnectionState) (ops : List ConnectionOp)
    (h : Guarded (connectionStep provider) (fun s op => keepsConsent s op = true)
      s.withoutIntegrations ops) : ConsentKept provider s.withoutIntegrations ops := by
  have hstart : ConnectionInvariant s.withoutIntegrations := connectionInvariant_start s
  have hinv : ∀ xs, Guarded (connectionStep provider) (fun s op => keepsConsent s op = true)
      s.withoutIntegrations xs →
      ConnectionInvariant (run (connectionStep provider) s.withoutIntegrations xs) ∧
        Consents (run (connectionStep provider) s.withoutIntegrations xs).store :=
    fun xs hxs => guarded_invariant (fun s => ConnectionInvariant s ∧ Consents s.store)
      (fun _ op h hkeep => ⟨h.1.step hkeep, h.2.step h.1 hkeep⟩) ⟨hstart, fun _ _ => rfl⟩ hxs
  refine ⟨(hinv ops h).2, (hinv ops h).1.periods.ordered.imp fun hpq hi hu => hpq.apart hi hu, ?_, ?_⟩
  · rintro before after rfl q hq hclosed p hp hid
    rw [Library.run_append] at hp
    obtain ⟨hbefore, hafter⟩ := Library.guarded_append.mp h
    have hkeys := (hinv before hbefore).1.periods.keys
    have hnow : StaysClosed q (run (connectionStep provider) s.withoutIntegrations before).store.periods
        (run (connectionStep provider) s.withoutIntegrations before).store.nextId :=
      ⟨hkeys.below q hq, fun p hp hid => hkeys.unique.eq hp hq hid⟩
    have hrun := guarded_invariant
      (fun s => ConnectionInvariant s ∧ StaysClosed q s.store.periods s.store.nextId)
      (fun _ op h hkeep => ⟨h.1.step hkeep, h.2.move (h.1.move op) hclosed⟩)
      ⟨(hinv before hbefore).1, hnow⟩ hafter
    exact hrun.2.2 p hp hid
  · rintro before now after rfl i u hwithdrawn t hfrom hto p hp hi hu ⟨hstarted, hended⟩
    obtain ⟨hbefore, hafter⟩ := Library.guarded_append.mp h
    obtain ⟨hhere, hconsents⟩ := hinv before hbefore
    -- no period of the user is open when the clock moves on, and all of them are over by then
    have hopen := hconsents i u
    have hnone : (run (connectionStep provider) s.withoutIntegrations before).store.consented i u = false := by
      rw [ConnectionState.consents, Bool.and_or_distrib_right, Bool.or_eq_false_iff] at hwithdrawn
      rw [ConnectionStore.consented, Bool.and_assoc]
      exact hwithdrawn.1
    rw [hnone] at hopen
    have hover : Uncovered i u t (t + 1)
        (run (connectionStep provider) s.withoutIntegrations before).store.periods := by
      intro q hq hqi hqu
      have hqclosed : q.isOpen = false := by
        have hq' := List.any_eq_false.mp hopen q hq
        rw [AuthorizationPeriod.isOf_iff.mpr ⟨hqi, hqu⟩, Bool.true_and, Bool.not_eq_true] at hq'
        exact hq'
      rw [AuthorizationPeriod.isOpen, Option.isNone_eq_false_iff] at hqclosed
      obtain ⟨e, he⟩ := Option.isSome_iff_exists.mp hqclosed
      exact .inl ⟨e, he, (hhere.periods.ended q hq e he).2.trans hfrom⟩
    have hticked : LeftOut i u t (connectionStep provider
        (run (connectionStep provider) s.withoutIntegrations before) (.tick now)) := by
      refine ⟨lt_of_lt_of_le hto (le_max_right _ _), hover, fun call hcall hof => ?_⟩
      -- a call in flight is of a user or for an integration that is switched off
      have hflight : (run (connectionStep provider) s.withoutIntegrations before).connecting i u = true :=
        List.any_eq_true.mpr ⟨call, hcall, hof⟩
      rw [ConnectionState.consents, hflight, Bool.or_true, Bool.true_and] at hwithdrawn
      exact .inr hwithdrawn
    rw [Library.run_append, Library.run_cons] at hp
    have hrun := guarded_invariant (fun s => ConnectionInvariant s ∧ LeftOut i u t s)
      (fun _ op h hkeep => ⟨h.1.step hkeep, h.2.step h.1 hkeep⟩) ⟨hhere.step rfl, hticked⟩ hafter.2
    rcases hrun.2.uncovered p hp hi hu with ⟨e, he, hle⟩ | hlater
    · have hlt := hended e he
      omega
    · omega

/-- Two owners and a member, before anything is connected. -/
def threeUsers : ConnectionState where
  store :=
    { users := [{ id := 1, role := .admin, enabled := true, dailyLimitMinutes := 0, weeklyLimitMinutes := 0 },
                { id := 2, role := .admin, enabled := true, dailyLimitMinutes := 0, weeklyLimitMinutes := 0 },
                { id := 3, role := .member, enabled := true, dailyLimitMinutes := 0,
                  weeklyLimitMinutes := 0 }]
      nextId := 10 }
  clock := minutes 1

/-- A call that connects an account, and its transaction at once. -/
def connects (now : Int) (userId : Nat) (identity : String × String) (kind : CredentialKind) :
    List ConnectionOp :=
  [.callUserConnection 10 userId (some identity) kind,
   .upsertUserConnection
    { integrationId := 10, userId, identity := some identity, kind, readAt := now }]

/-- The first owner connects the site, and the member an account. -/
def siteConnected : List ConnectionOp :=
  [.upsertSite (some "acme") 1, .setSiteCredential 10 true] ++
    connects (minutes 1) 1 ("a1", "Ada") .site ++ [.setMemberCredential 10 3 true] ++
    connects (minutes 1) 3 ("c3", "Cy") .member

/-- The member is switched off for an hour and connects again, with another account and with a call that
takes a minute. -/
def memberReturns : List ConnectionOp :=
  siteConnected ++
    [.tick (minutes 60), .setUserEnabled 3 false, .tick (minutes 120), .setUserEnabled 3 true,
     .setMemberCredential 10 3 true, .callUserConnection 10 3 (some ("c4", "Cy")) .member,
     .tick (minutes 121),
     .upsertUserConnection
      { integrationId := 10, userId := 3, identity := some ("c4", "Cy"), kind := .member,
        readAt := minutes 120 },
     .tick (minutes 180), .disconnectUser 10 3, .disconnectIntegration 10 (minutes 180)]

theorem consent_kept_memberReturns :
    ConsentKept .jira threeUsers.withoutIntegrations memberReturns :=
  consent_kept .jira threeUsers memberReturns (by decide +kernel)

/-! ## Without consent -/

/-- The second owner connects the site again: the first one's connection is switched off and the period
stays open. -/
theorem consent_grantTaken :
    ¬ ∀ (provider : CloudProvider) (s : ConnectionState) (ops : List ConnectionOp),
      ConsentKept provider s.withoutIntegrations ops := by
  intro h
  have hiff := (h .jira threeUsers (siteConnected ++
    [.upsertSite (some "acme") 2, .setSiteCredential 10 true] ++
    connects (minutes 1) 2 ("b2", "Bo") .site)).open_iff 10 1
  exact absurd hiff (by decide +kernel)

/-- An owner who is switched off and on again has an enabled connection and no open period. -/
theorem consent_connectorReturns :
    ¬ ConsentKept .asana threeUsers.withoutIntegrations
      (siteConnected ++ [.setUserEnabled 1 false, .setUserEnabled 1 true]) := by
  intro h
  exact absurd (h.open_iff 10 1) (by decide +kernel)

/-- A call that was made before the member disconnected and comes to its transaction after the account can
be connected again: its period begins in the one that is over. -/
theorem consent_callOvertaken :
    ¬ ConsentKept .jira threeUsers.withoutIntegrations
      (siteConnected ++
        [.callUserConnection 10 3 (some ("c3", "Cy")) .member, .tick (minutes 60), .disconnectUser 10 3,
         .tick (minutes 120), .setMemberCredential 10 3 true,
         .upsertUserConnection
          { integrationId := 10, userId := 3, identity := some ("c3", "Cy"), kind := .member,
            readAt := minutes 1 }]) := by
  intro h
  have happart := List.pairwise_iff_getElem.mp h.apart 1 2 (by decide +kernel) (by decide +kernel)
    (by decide) (by decide +kernel) (by decide +kernel) (minutes 30)
  exact happart (by decide +kernel)

end Dayfinch
