/-
# Dayfinch.Integrations.SlackClaims -- when the claims of Slack messages exclude each other

Messages are enqueued once, and a message that is sent or discarded stays so, in every run. That a message has
one worker and a destination one message does not follow from the statements alone: the conditions of a claim
are not evaluated again for the row that is locked, and a renewal does not ask whether the claim has ended in
the meantime and another message of the destination was claimed. `SlackOp.claimsFree` is the condition that
such a row is still free when it is locked, and that the destination has no other message in hand when a claim
is renewed.
-/
import Dayfinch.Integrations.SlackOutbox

namespace Dayfinch

open Library (updateWhere mem_updateWhere_cases mem_updateWhere_of_mem mem_updateWhere_of_false UniqueKey
  CountedKeys run run_invariant Guarded guarded_invariant)

/-! ## The property -/

/-- Claims exclude each other, messages end once, and events are enqueued once. -/
structure SlackDeliveriesExclusive (s : SlackState) : Prop where
  /-- No message is held by two workers with unexpired leases. -/
  messages : ∀ l ∈ s.leases, ∀ l' ∈ s.leases, s.clock < l.claimUntil → s.clock < l'.claimUntil →
    l.messageId = l'.messageId → l = l'
  /-- Each destination has at most one message under an unexpired lease. -/
  destinations : ∀ l ∈ s.leases, ∀ l' ∈ s.leases, s.clock < l.claimUntil → s.clock < l'.claimUntil →
    l.destinationId = l'.destinationId → l.messageId = l'.messageId
  /-- No message is both sent and discarded. -/
  ended : ∀ m ∈ s.outbox, m.sentAt = none ∨ m.discardedAt = none
  /-- What is sent or discarded stays so, whatever the next step is. -/
  terminal : ∀ op, ∀ m ∈ s.outbox, m.pending = false → ∃ m' ∈ (s.step op).outbox,
    m'.id = m.id ∧ m'.sentAt = m.sentAt ∧ m'.discardedAt = m.discardedAt
  /-- A session has one message of each kind for each destination. -/
  enqueued : ∀ m ∈ s.outbox, ∀ m' ∈ s.outbox, m.sessionId.isSome → m.sessionId = m'.sessionId →
    m.eventType = m'.eventType → m.destinationId = m'.destinationId → m = m'

/-! ## The condition -/

namespace SlackState

/-- No other message of the destination is under an unexpired claim, or locked by a statement that claims. -/
def alone (s : SlackState) (m : SlackMessage) : Bool :=
  s.outbox.all fun m' => m'.destinationId != m.destinationId || m'.id == m.id ||
    (!m'.live s.clock && !s.locked m'.id)

/-- The row of a claimed message: it is pending, its claim has ended, and it is alone. -/
def isFree (s : SlackState) (observedAt : Int) (m : SlackMessage) : Bool :=
  m.pending && m.claimUntil.all (· ≤ observedAt) && s.alone m

end SlackState

/-- **The condition**: the row that a statement locks is free in its latest version, and a claim is renewed
only of a message that is alone at its destination. -/
def SlackOp.claimsFree (s : SlackState) : SlackOp → Bool
  | .lockRow token => s.claims.all fun c => c.token != token || c.candidates.head?.all fun m =>
      !s.takes c m || s.outbox.all fun row => row.id != m.id || s.isFree c.observedAt row
  | .renew id token _ _ => s.outbox.all fun m => !m.claimedBy id token || s.alone m
  | _ => true

/-! ## The outbox -/

namespace SlackMessage

/-- The key of a session's event names the session and the kind. -/
def KeyFits (m : SlackMessage) : Prop := ∀ id ∈ m.sessionId,
  (m.eventType = .timerStarted ∧ m.eventKey = .started id) ∨
    (m.eventType = .timerStopped ∧ m.eventKey = .stopped id)

theorem pending_iff {m : SlackMessage} : m.pending = true ↔ m.sentAt = none ∧ m.discardedAt = none := by
  unfold pending
  rw [Bool.and_eq_true, Option.isNone_iff_eq_none, Option.isNone_iff_eq_none]

theorem claimedBy_iff {id token : Nat} {m : SlackMessage} :
    m.claimedBy id token = true ↔ m.id = id ∧ m.claimToken = some token ∧ m.pending = true := by
  unfold claimedBy
  rw [Bool.and_eq_true, Bool.and_eq_true, beq_iff_eq, beq_iff_eq, and_assoc]

theorem live_iff {now : Int} {m : SlackMessage} :
    m.live now = true ↔ m.pending = true ∧ ∃ claimUntil, m.claimUntil = some claimUntil ∧ now < claimUntil := by
  unfold live
  cases m.claimUntil with
  | none => simp
  | some claimUntil => simp

end SlackMessage

/-- What the triggers and the updates keep of the outbox. -/
structure OutboxSound (s : SlackState) : Prop where
  rows : CountedKeys (·.id) s.outbox s.nextId
  events : UniqueKey (fun m => (m.destinationId, m.eventKey)) s.outbox
  keys : ∀ m ∈ s.outbox, m.KeyFits
  ended : ∀ m ∈ s.outbox, m.sentAt = none ∨ m.discardedAt = none

/-- An event of a session has the session's key. -/
theorem sessionEvent_keyFits {old : Option WorkSession} {new : WorkSession} {event : SlackEvent}
    (h : sessionEvent old new = some event) : ∀ id ∈ event.sessionId,
      (event.eventType = .timerStarted ∧ event.eventKey = .started id) ∨
        (event.eventType = .timerStopped ∧ event.eventKey = .stopped id) := by
  intro id hid
  unfold sessionEvent at h
  dsimp only at h
  split at h
  · split at h
    · obtain rfl := Option.some.inj h
      obtain rfl := Option.some.inj hid
      exact .inl ⟨rfl, rfl⟩
    · cases h
  · split at h
    · obtain rfl := Option.some.inj h
      obtain rfl := Option.some.inj hid
      exact .inr ⟨rfl, rfl⟩
    · cases h

theorem todoEvent_keyFits {old new : Option Int} {todoId projectId : Nat} {completedByUserId : Option Nat}
    {event : SlackEvent} (h : todoEvent old new todoId projectId completedByUserId = some event) :
    event.sessionId = none := by
  unfold todoEvent at h
  split at h
  · obtain rfl := Option.some.inj h
    rfl
  · cases h

namespace OutboxSound

variable {s : SlackState}

/-- An update of messages that keeps their identity, and leaves them sent or discarded but not both. -/
theorem update (h : OutboxSound s) {p : SlackMessage → Bool} {f : SlackMessage → SlackMessage}
    (hid : ∀ m, (f m).id = m.id) (hkey : ∀ m, (f m).destinationId = m.destinationId ∧
      (f m).eventKey = m.eventKey ∧ (f m).eventType = m.eventType ∧ (f m).sessionId = m.sessionId)
    (hended : ∀ m, p m = true → m.sentAt = none ∨ m.discardedAt = none →
      (f m).sentAt = none ∨ (f m).discardedAt = none)
    {claims : List SlackClaim} {leases : List SlackLease} {nextToken : Nat} :
    OutboxSound { s with outbox := updateWhere p f s.outbox, claims, leases, nextToken } where
  rows := h.rows.updateWhere hid
  events := h.events.updateWhere fun m => by
    obtain ⟨hdestination, heventKey, _, _⟩ := hkey m
    rw [hdestination, heventKey]
  keys m hm := by
    rcases mem_updateWhere_cases hm with ⟨hold, _⟩ | ⟨old, hold, _, rfl⟩
    · exact h.keys m hold
    · obtain ⟨_, heventKey, heventType, hsession⟩ := hkey old
      unfold SlackMessage.KeyFits
      rw [heventKey, heventType, hsession]
      exact h.keys old hold
  ended m hm := by
    rcases mem_updateWhere_cases hm with ⟨hold, _⟩ | ⟨old, hold, hp, rfl⟩
    · exact h.ended m hold
    · exact hended old hp (h.ended old hold)

/-- A message of an event is enqueued. -/
theorem insertMessage (h : OutboxSound s) {event : SlackEvent} (now : Int) (d : SlackDestination)
    (hfits : ∀ id ∈ event.sessionId, (event.eventType = .timerStarted ∧ event.eventKey = .started id) ∨
      (event.eventType = .timerStopped ∧ event.eventKey = .stopped id)) :
    OutboxSound (SlackState.insertMessage event now s d) := by
  unfold SlackState.insertMessage
  split
  · exact h
  · rename_i hnew
    refine ⟨h.rows.append rfl, h.events.append_fresh fun m hm heq => hnew ?_, fun m hm => ?_, fun m hm => ?_⟩
    · obtain ⟨hdestination, heventKey⟩ := Prod.mk.inj heq
      exact List.any_eq_true.mpr ⟨m, hm, by simp [hdestination, heventKey]⟩
    · rcases List.mem_append.mp hm with hold | hlast
      · exact h.keys m hold
      · rw [List.mem_singleton.mp hlast]
        exact hfits
    · rcases List.mem_append.mp hm with hold | hlast
      · exact h.ended m hold
      · rw [List.mem_singleton.mp hlast]
        exact .inl rfl

theorem enqueue (h : OutboxSound s) {event : Option SlackEvent} (now : Int)
    (hfits : ∀ e ∈ event, ∀ id ∈ e.sessionId,
      (e.eventType = .timerStarted ∧ e.eventKey = .started id) ∨
        (e.eventType = .timerStopped ∧ e.eventKey = .stopped id)) : OutboxSound (s.enqueue event now) := by
  unfold SlackState.enqueue
  split
  · exact h
  · rename_i e
    have hall : ∀ (destinations : List SlackDestination) (s : SlackState), OutboxSound s →
        OutboxSound (destinations.foldl (SlackState.insertMessage e now) s) := by
      intro destinations
      induction destinations with
      | nil => exact fun _ h => h
      | cons d rest ih => exact fun s h => ih _ (h.insertMessage now d (hfits e rfl))
    exact hall _ s h

/-- **Every step keeps the outbox**: unique events, and no message both sent and discarded. -/
theorem step (h : OutboxSound s) (op : SlackOp) : OutboxSound (s.step op) := by
  cases op with
  | tick elapsed => exact ⟨h.rows, h.events, h.keys, h.ended⟩
  | configure workspaces destinations userRules => exact ⟨h.rows, h.events, h.keys, h.ended⟩
  | session old new now => exact h.enqueue now fun e he => sessionEvent_keyFits he
  | todo old new todoId projectId completedByUserId now =>
    refine h.enqueue now fun e he id hid => ?_
    rw [todoEvent_keyFits he] at hid
    cases hid
  | claimDue observedAt limit leaseSeconds =>
    unfold SlackState.step
    dsimp only
    split
    · exact ⟨h.rows, h.events, h.keys, h.ended⟩
    · exact h
  | lockRow token => exact ⟨h.rows, h.events, h.keys, h.ended⟩
  | commitClaim token =>
    unfold SlackState.step
    dsimp only
    split
    · exact h
    · split
      · refine h.update ?_ ?_ ?_
        · exact fun _ => rfl
        · exact fun _ => ⟨rfl, rfl, rfl, rfl⟩
        · exact fun _ _ hended => hended
      · exact h
  | abortClaim token => exact ⟨h.rows, h.events, h.keys, h.ended⟩
  | renew id token observedAt leaseSeconds =>
    unfold SlackState.step SlackState.renewSlackMessageClaim
    dsimp only
    split
    · split
      · refine h.update ?_ ?_ ?_
        · exact fun _ => rfl
        · exact fun _ => ⟨rfl, rfl, rfl, rfl⟩
        · exact fun _ _ hended => hended
      · exact ⟨h.rows, h.events, h.keys, h.ended⟩
    · exact h
  | succeed id token providerTs observedAt =>
    unfold SlackState.step SlackState.settle
    dsimp only
    split
    · refine h.update ?_ ?_ ?_
      · exact fun _ => rfl
      · exact fun _ => ⟨rfl, rfl, rfl, rfl⟩
      · exact fun m hown _ => .inr (SlackMessage.pending_iff.mp (SlackMessage.claimedBy_iff.mp hown).2.2).2
    · exact h
  | fail id token observedAt errorCode retrySeconds =>
    unfold SlackState.step SlackState.settle
    dsimp only
    split
    · exact h
    · refine h.update ?_ ?_ ?_
      · exact fun _ => rfl
      · exact fun _ => ⟨rfl, rfl, rfl, rfl⟩
      · exact fun m hown _ => .inl (SlackMessage.pending_iff.mp (SlackMessage.claimedBy_iff.mp hown).2.2).1

/-- A session has one message of each kind for each destination. -/
theorem enqueued (h : OutboxSound s) {m m' : SlackMessage} (hm : m ∈ s.outbox) (hm' : m' ∈ s.outbox)
    (hsome : m.sessionId.isSome) (hsession : m.sessionId = m'.sessionId) (htype : m.eventType = m'.eventType)
    (hdestination : m.destinationId = m'.destinationId) : m = m' := by
  obtain ⟨id, hid⟩ := Option.isSome_iff_exists.mp hsome
  refine h.events.eq hm hm' (Prod.ext hdestination ?_)
  have hid' : m'.sessionId = some id := hsession.symm.trans hid
  rcases h.keys m hm id hid with ⟨hstarted, hkey⟩ | ⟨hstopped, hkey⟩
  · rcases h.keys m' hm' id hid' with ⟨_, hkey'⟩ | ⟨hstopped', _⟩
    · exact hkey.trans hkey'.symm
    · rw [htype, hstopped'] at hstarted
      cases hstarted
  · rcases h.keys m' hm' id hid' with ⟨hstarted', _⟩ | ⟨_, hkey'⟩
    · rw [htype, hstarted'] at hstopped
      cases hstopped
    · exact hkey.trans hkey'.symm

end OutboxSound

/-! ## What is ended stays so -/

/-- An update that leaves messages that are sent or discarded alone, or keeps when they were. -/
theorem terminal_updateWhere {outbox : List SlackMessage} {p : SlackMessage → Bool}
    {f : SlackMessage → SlackMessage} (hid : ∀ m, (f m).id = m.id)
    (hkeeps : ∀ m, p m = true → m.pending = false →
      (f m).sentAt = m.sentAt ∧ (f m).discardedAt = m.discardedAt) {m : SlackMessage} (hm : m ∈ outbox)
    (hended : m.pending = false) : ∃ m' ∈ updateWhere p f outbox,
      m'.id = m.id ∧ m'.sentAt = m.sentAt ∧ m'.discardedAt = m.discardedAt := by
  refine ⟨_, mem_updateWhere_of_mem hm, ?_⟩
  by_cases hp : p m = true
  · rw [if_pos hp]
    exact ⟨hid m, hkeeps m hp hended⟩
  · rw [if_neg hp]
    exact ⟨rfl, rfl, rfl⟩

theorem insertMessage_sublist (event : SlackEvent) (now : Int) (s : SlackState) (d : SlackDestination) :
    ∀ m ∈ s.outbox, m ∈ (SlackState.insertMessage event now s d).outbox := by
  intro m hm
  unfold SlackState.insertMessage
  split
  · exact hm
  · exact List.mem_append_left _ hm

theorem enqueue_sublist (s : SlackState) (event : Option SlackEvent) (now : Int) :
    ∀ m ∈ s.outbox, m ∈ (s.enqueue event now).outbox := by
  unfold SlackState.enqueue
  split
  · exact fun _ hm => hm
  · rename_i e
    generalize s.destinationsOf e = destinations
    induction destinations generalizing s with
    | nil => exact fun _ hm => hm
    | cons d rest ih => exact fun m hm => ih _ m (insertMessage_sublist e now s d m hm)

/-- **Sent and discarded are terminal.** -/
theorem slack_terminal (s : SlackState) (op : SlackOp) {m : SlackMessage} (hm : m ∈ s.outbox)
    (hended : m.pending = false) : ∃ m' ∈ (s.step op).outbox,
      m'.id = m.id ∧ m'.sentAt = m.sentAt ∧ m'.discardedAt = m.discardedAt := by
  have hsettle : ∀ id token (f : SlackMessage → SlackMessage), (∀ m, (f m).id = m.id) →
      ∃ m' ∈ (s.settle id token f).outbox,
        m'.id = m.id ∧ m'.sentAt = m.sentAt ∧ m'.discardedAt = m.discardedAt := by
    intro id token f hid
    refine terminal_updateWhere ?_ ?_ hm hended
    · exact hid
    · intro m hown hnot
      rw [(SlackMessage.claimedBy_iff.mp hown).2.2] at hnot
      cases hnot
  cases op with
  | tick elapsed => exact ⟨m, hm, rfl, rfl, rfl⟩
  | configure workspaces destinations userRules => exact ⟨m, hm, rfl, rfl, rfl⟩
  | session old new now => exact ⟨m, enqueue_sublist s _ now m hm, rfl, rfl, rfl⟩
  | todo old new todoId projectId completedByUserId now =>
    exact ⟨m, enqueue_sublist s _ now m hm, rfl, rfl, rfl⟩
  | claimDue observedAt limit leaseSeconds =>
    unfold SlackState.step
    dsimp only
    split <;> exact ⟨m, hm, rfl, rfl, rfl⟩
  | lockRow token => exact ⟨m, hm, rfl, rfl, rfl⟩
  | commitClaim token =>
    unfold SlackState.step
    dsimp only
    split
    · exact ⟨m, hm, rfl, rfl, rfl⟩
    · split
      · refine terminal_updateWhere ?_ ?_ hm hended
        · exact fun _ => rfl
        · exact fun _ _ _ => ⟨rfl, rfl⟩
      · exact ⟨m, hm, rfl, rfl, rfl⟩
  | abortClaim token => exact ⟨m, hm, rfl, rfl, rfl⟩
  | renew id token observedAt leaseSeconds =>
    unfold SlackState.step SlackState.renewSlackMessageClaim
    dsimp only
    split
    · split
      · refine terminal_updateWhere ?_ ?_ hm hended
        · exact fun _ => rfl
        · exact fun _ _ _ => ⟨rfl, rfl⟩
      · exact ⟨m, hm, rfl, rfl, rfl⟩
    · exact ⟨m, hm, rfl, rfl, rfl⟩
  | succeed id token providerTs observedAt =>
    unfold SlackState.step
    dsimp only
    split
    · exact hsettle id token _ fun _ => rfl
    · exact ⟨m, hm, rfl, rfl, rfl⟩
  | fail id token observedAt errorCode retrySeconds =>
    unfold SlackState.step
    dsimp only
    split
    · exact ⟨m, hm, rfl, rfl, rfl⟩
    · exact hsettle id token _ fun _ => rfl

/-! ## Locks -/

/-- What a statement that claims has locked is free; messages of a destination are claimed one at a time. -/
structure LocksSound (s : SlackState) : Prop where
  tokens : CountedKeys (·.token) s.claims s.nextToken
  observed : ∀ c ∈ s.claims, c.observedAt ≤ s.clock
  once : ∀ c ∈ s.claims, ∀ c' ∈ s.claims, ∀ id ∈ c.locked, id ∈ c'.locked → c.token = c'.token
  ids : ∀ c ∈ s.claims, ∀ id ∈ c.locked, id < s.nextId
  alone : ∀ m ∈ s.outbox, ∀ m' ∈ s.outbox, m.destinationId = m'.destinationId → m.live s.clock = true →
    m'.live s.clock = true → m.id = m'.id
  locked : ∀ m ∈ s.outbox, s.locked m.id = true →
    m.pending = true ∧ (∀ claimUntil ∈ m.claimUntil, claimUntil ≤ s.clock) ∧ s.alone m = true

theorem SlackMessage.live_mono {now later : Int} (h : now ≤ later) {m : SlackMessage}
    (hlive : m.live later = true) : m.live now = true := by
  rw [SlackMessage.live_iff] at *
  obtain ⟨hpending, claimUntil, huntil, hlt⟩ := hlive
  exact ⟨hpending, claimUntil, huntil, Int.lt_of_le_of_lt h hlt⟩

namespace SlackState

theorem locked_iff {s : SlackState} {id : Nat} : s.locked id = true ↔ ∃ c ∈ s.claims, id ∈ c.locked := by
  unfold locked
  simp only [List.any_eq_true, List.contains_iff_mem]

theorem alone_iff {s : SlackState} {m : SlackMessage} : s.alone m = true ↔ ∀ m' ∈ s.outbox,
    m'.destinationId = m.destinationId → m'.id ≠ m.id → m'.live s.clock = false ∧ s.locked m'.id = false := by
  unfold alone
  rw [List.all_eq_true]
  refine forall₂_congr fun m' _ => ?_
  simp only [Bool.or_eq_true, bne_iff_ne, beq_iff_eq, Bool.and_eq_true, Bool.not_eq_true']
  tauto

end SlackState

/-- A step that claims nothing: its rows are old, or neither claimed nor locked, and no row is locked that was
not. -/
structure Quieter (s s' : SlackState) : Prop where
  clock : s.clock ≤ s'.clock
  rows : ∀ m ∈ s'.outbox, (m.live s'.clock = false ∧ s'.locked m.id = false) ∨ m ∈ s.outbox
  locks : ∀ id, s'.locked id = true → s.locked id = true

namespace LocksSound

variable {s s' : SlackState}

theorem of_quieter (h : LocksSound s) (hquieter : Quieter s s')
    (htokens : CountedKeys (·.token) s'.claims s'.nextToken)
    (hobserved : ∀ c ∈ s'.claims, c.observedAt ≤ s'.clock)
    (honce : ∀ c ∈ s'.claims, ∀ c' ∈ s'.claims, ∀ id ∈ c.locked, id ∈ c'.locked → c.token = c'.token)
    (hids : ∀ c ∈ s'.claims, ∀ id ∈ c.locked, id < s'.nextId) : LocksSound s' := by
  have hlive : ∀ m : SlackMessage, m.live s'.clock = true → m.live s.clock = true :=
    fun m => SlackMessage.live_mono hquieter.clock
  refine ⟨htokens, hobserved, honce, hids, fun m hm m' hm' hdestination hm₁ hm₂ => ?_, fun m hm hlocked => ?_⟩
  · rcases hquieter.rows m hm with ⟨hdead, _⟩ | hold
    · rw [hm₁] at hdead
      cases hdead
    · rcases hquieter.rows m' hm' with ⟨hdead, _⟩ | hold'
      · rw [hm₂] at hdead
        cases hdead
      · exact h.alone m hold m' hold' hdestination (hlive m hm₁) (hlive m' hm₂)
  · rcases hquieter.rows m hm with ⟨_, hfree⟩ | hold
    · rw [hlocked] at hfree
      cases hfree
    · obtain ⟨hpending, hended, halone⟩ := h.locked m hold (hquieter.locks m.id hlocked)
      refine ⟨hpending, fun u hu => (hended u hu).trans hquieter.clock, ?_⟩
      rw [SlackState.alone_iff] at *
      intro m' hm' hdestination hne
      rcases hquieter.rows m' hm' with hquiet | hold'
      · exact hquiet
      · obtain ⟨hdead, hfree⟩ := halone m' hold' hdestination hne
        constructor
        · rw [← Bool.not_eq_true] at *
          exact fun hm' => hdead (hlive m' hm')
        · rw [← Bool.not_eq_true] at *
          exact fun hm' => hfree (hquieter.locks m'.id hm')

/-- The same claims, over rows that are old or neither claimed nor locked. -/
theorem same_claims (h : LocksSound s) (hclock : s.clock ≤ s'.clock) (hclaims : s'.claims = s.claims)
    (htoken : s'.nextToken = s.nextToken) (hnext : s.nextId ≤ s'.nextId)
    (hrows : ∀ m ∈ s'.outbox, (m.live s'.clock = false ∧ s.locked m.id = false) ∨ m ∈ s.outbox) :
    LocksSound s' := by
  have hlocked : s'.locked = s.locked := by
    unfold SlackState.locked
    rw [hclaims]
  refine h.of_quieter ⟨hclock, ?_, ?_⟩ ?_ ?_ ?_ ?_
  · rw [hlocked]
    exact hrows
  · rw [hlocked]
    exact fun _ hid => hid
  · rw [hclaims, htoken]
    exact h.tokens
  · rw [hclaims]
    exact fun c hc => (h.observed c hc).trans hclock
  · rw [hclaims]
    exact h.once
  · rw [hclaims]
    exact fun c hc id hid => Nat.lt_of_lt_of_le (h.ids c hc id hid) hnext

/-- Fewer claims. -/
theorem fewer_claims (h : LocksSound s) (p : SlackClaim → Bool) :
    LocksSound { s with claims := s.claims.filter p } := by
  have hclaims : ∀ c ∈ s.claims.filter p, c ∈ s.claims := fun _ hc => List.mem_of_mem_filter hc
  refine h.of_quieter ⟨le_rfl, fun _ hm => .inr hm, fun id hid => ?_⟩ (h.tokens.sublist List.filter_sublist)
    (fun c hc => h.observed c (hclaims c hc))
    (fun c hc c' hc' => h.once c (hclaims c hc) c' (hclaims c' hc')) fun c hc => h.ids c (hclaims c hc)
  obtain ⟨c, hc, hin⟩ := SlackState.locked_iff.mp hid
  exact SlackState.locked_iff.mpr ⟨c, hclaims c hc, hin⟩

/-- A new message is neither claimed nor locked. -/
theorem insertMessage (h : LocksSound s) (event : SlackEvent) (now : Int) (d : SlackDestination) :
    LocksSound (SlackState.insertMessage event now s d) := by
  unfold SlackState.insertMessage
  split
  · exact h
  · refine h.same_claims le_rfl rfl rfl (Nat.le_succ _) fun m hm => ?_
    rcases List.mem_append.mp hm with hold | hlast
    · exact .inr hold
    · rw [List.mem_singleton.mp hlast]
      refine .inl ⟨rfl, ?_⟩
      rw [← Bool.not_eq_true, SlackState.locked_iff]
      rintro ⟨c, hc, hin⟩
      exact Nat.lt_irrefl _ (h.ids c hc _ hin)

theorem enqueue (h : LocksSound s) (event : Option SlackEvent) (now : Int) :
    LocksSound (s.enqueue event now) := by
  unfold SlackState.enqueue
  split
  · exact h
  · rename_i e
    generalize s.destinationsOf e = destinations
    induction destinations generalizing s with
    | nil => exact h
    | cons d rest ih => exact ih (h.insertMessage e now d)

/-- A message that is settled is not claimed any more. -/
theorem settle (h : LocksSound s) (id token : Nat) {f : SlackMessage → SlackMessage}
    (hid : ∀ m, (f m).id = m.id) (hfree : s.locked id = false) : LocksSound (s.settle id token f) := by
  refine h.same_claims le_rfl rfl rfl le_rfl fun m hm => ?_
  rcases mem_updateWhere_cases hm with ⟨hold, _⟩ | ⟨old, _, hown, rfl⟩
  · exact .inr hold
  · refine .inl ⟨?_, ?_⟩
    · unfold SlackMessage.live
      exact Bool.and_false _
    · show s.locked (f old).id = false
      rw [hid, (SlackMessage.claimedBy_iff.mp hown).1]
      exact hfree

/-- What a statement does when it comes to a row: it goes on, or it locks the row, which is there and nobody's. -/
theorem lockRow_cases (s : SlackState) (c : SlackClaim) :
    (s.lockRow c).token = c.token ∧ (s.lockRow c).observedAt = c.observedAt ∧
      ((s.lockRow c).locked = c.locked ∨ ∃ m, c.candidates.head? = some m ∧ s.takes c m = true ∧
        (s.lockRow c).locked = c.locked ++ [m.id]) := by
  unfold SlackState.lockRow
  cases hcandidates : c.candidates with
  | nil => exact ⟨rfl, rfl, .inl rfl⟩
  | cons m rest =>
    refine ⟨rfl, rfl, ?_⟩
    by_cases htakes : s.takes c m = true
    · exact .inr ⟨m, rfl, htakes, if_pos htakes⟩
    · exact .inl (if_neg htakes)

/-- **A free row is locked.** -/
theorem lockRow (h : LocksSound s) (houtbox : OutboxSound s) (token : Nat)
    (hfree : (SlackOp.lockRow token).claimsFree s = true) : LocksSound (s.step (.lockRow token)) := by
  by_cases hnone : ∀ c ∈ s.claims, (c.token == token) = false
  · unfold SlackState.step
    dsimp only
    rw [Library.updateWhere_eq_self hnone]
    exact h
  push Not at hnone
  obtain ⟨c, hc, htoken⟩ := hnone
  have htoken : c.token = token := by simpa using htoken
  obtain ⟨hsameToken, hsameTime, hrows⟩ := lockRow_cases s c
  have hfrom : ∀ c' ∈ (s.step (.lockRow token)).claims, c' = s.lockRow c ∨ c' ∈ s.claims := by
    intro c' hc'
    rcases mem_updateWhere_cases hc' with ⟨hold, _⟩ | ⟨q, hq, hown, rfl⟩
    · exact .inr hold
    · rw [h.tokens.unique.eq hq hc ((beq_iff_eq.mp hown).trans htoken.symm)]
      exact .inl rfl
  have hkept : ∀ c' ∈ s.claims, c' ≠ c → c' ∈ (s.step (.lockRow token)).claims := by
    intro c' hc' hne
    refine mem_updateWhere_of_false hc' (beq_false_of_ne fun heq => hne ?_)
    exact h.tokens.unique.eq hc' hc (heq.trans htoken.symm)
  have hgoes : s.lockRow c ∈ (s.step (.lockRow token)).claims := by
    have hmem := mem_updateWhere_of_mem (p := (·.token == token)) (f := s.lockRow) hc
    rwa [if_pos (beq_iff_eq.mpr htoken)] at hmem
  have htokens : CountedKeys (·.token) (s.step (.lockRow token)).claims s.nextToken :=
    h.tokens.updateWhere fun c => (lockRow_cases s c).1
  have hobserved : ∀ c' ∈ (s.step (.lockRow token)).claims, c'.observedAt ≤ s.clock := by
    intro c' hc'
    rcases hfrom c' hc' with rfl | hold
    · rw [hsameTime]
      exact h.observed c hc
    · exact h.observed c' hold
  rcases hrows with hsame | ⟨m, hhead, htakes, hlocks⟩
  · have hold : ∀ c' ∈ (s.step (.lockRow token)).claims, ∃ q ∈ s.claims, q.token = c'.token ∧
        q.locked = c'.locked := by
      intro c' hc'
      rcases hfrom c' hc' with rfl | hold
      · exact ⟨c, hc, hsameToken.symm, hsame.symm⟩
      · exact ⟨c', hold, rfl, rfl⟩
    refine h.of_quieter ⟨le_rfl, fun _ hm => .inr hm, fun id hid => ?_⟩ htokens hobserved
      (fun c₁ hc₁ c₂ hc₂ id hid hid' => ?_) fun c₁ hc₁ id hid => ?_
    · obtain ⟨c', hc', hin⟩ := SlackState.locked_iff.mp hid
      obtain ⟨q, hq, _, heq⟩ := hold c' hc'
      exact SlackState.locked_iff.mpr ⟨q, hq, heq ▸ hin⟩
    · obtain ⟨q₁, hq₁, ht₁, heq₁⟩ := hold c₁ hc₁
      obtain ⟨q₂, hq₂, ht₂, heq₂⟩ := hold c₂ hc₂
      rw [← ht₁, ← ht₂]
      exact h.once q₁ hq₁ q₂ hq₂ id (heq₁ ▸ hid) (heq₂ ▸ hid')
    · obtain ⟨q, hq, _, heq⟩ := hold c₁ hc₁
      exact h.ids q hq id (heq ▸ hid)
  · -- the row, in its latest version
    have hunlocked : s.locked m.id = false ∧ ∃ row ∈ s.outbox, row.id = m.id := by
      unfold SlackState.takes at htakes
      simp only [Bool.and_eq_true, Bool.not_eq_true', List.any_eq_true, beq_iff_eq] at htakes
      exact ⟨htakes.2, htakes.1.2⟩
    obtain ⟨hunlocked, row, hrow, hrowId⟩ := hunlocked
    have hisFree : s.isFree c.observedAt row = true := by
      have hall := List.all_eq_true.mp hfree c hc
      rw [htoken, hhead, Option.all_some, htakes] at hall
      simp only [bne_self_eq_false, Bool.false_or, Bool.not_true, List.all_eq_true] at hall
      have hone := hall row hrow
      simpa [hrowId] using hone
    unfold SlackState.isFree at hisFree
    rw [Bool.and_eq_true, Bool.and_eq_true] at hisFree
    obtain ⟨⟨hpending, hended⟩, halone⟩ := hisFree
    have halone' := SlackState.alone_iff.mp halone
    have hlocked : ∀ id, (s.step (.lockRow token)).locked id = true → s.locked id = true ∨ id = m.id := by
      intro id hid
      obtain ⟨c', hc', hin⟩ := SlackState.locked_iff.mp hid
      rcases hfrom c' hc' with rfl | hold
      · rw [hlocks] at hin
        rcases List.mem_append.mp hin with hin | hlast
        · exact .inl (SlackState.locked_iff.mpr ⟨c, hc, hin⟩)
        · exact .inr (List.mem_singleton.mp hlast)
      · exact .inl (SlackState.locked_iff.mpr ⟨c', hold, hin⟩)
    have hnot : ∀ c' ∈ s.claims, m.id ∉ c'.locked := by
      intro c' hc' hin
      rw [SlackState.locked_iff.mpr ⟨c', hc', hin⟩] at hunlocked
      cases hunlocked
    have honce : ∀ c' ∈ s.claims, ∀ id ∈ (s.lockRow c).locked, id ∈ c'.locked → c.token = c'.token := by
      intro c' hc' id hid hid'
      rw [hlocks] at hid
      rcases List.mem_append.mp hid with hin | hlast
      · exact h.once c hc c' hc' id hin hid'
      · rw [List.mem_singleton.mp hlast] at hid'
        exact absurd hid' (hnot c' hc')
    refine ⟨htokens, hobserved, fun c₁ hc₁ c₂ hc₂ id hid hid' => ?_, fun c₁ hc₁ id hid => ?_, h.alone,
      fun r hr hrLocked => ?_⟩
    · rcases hfrom c₁ hc₁ with rfl | hold₁
      · rcases hfrom c₂ hc₂ with rfl | hold₂
        · rfl
        · rw [hsameToken]
          exact honce c₂ hold₂ id hid hid'
      · rcases hfrom c₂ hc₂ with rfl | hold₂
        · rw [hsameToken]
          exact (honce c₁ hold₁ id hid' hid).symm
        · exact h.once c₁ hold₁ c₂ hold₂ id hid hid'
    · rcases hfrom c₁ hc₁ with rfl | hold₁
      · rw [hlocks] at hid
        rcases List.mem_append.mp hid with hin | hlast
        · exact h.ids c hc id hin
        · rw [List.mem_singleton.mp hlast, ← hrowId]
          exact houtbox.rows.below row hrow
      · exact h.ids c₁ hold₁ id hid
    · have hquiet : ∀ r' ∈ s.outbox, s.locked r'.id = false → r'.id ≠ m.id →
          (s.step (.lockRow token)).locked r'.id = false := by
        intro r' _ hfree' hne
        rw [← Bool.not_eq_true]
        intro hin
        rcases hlocked r'.id hin with hold | heq
        · rw [hold] at hfree'
          cases hfree'
        · exact hne heq
      rcases hlocked r.id hrLocked with hold | heq
      · obtain ⟨hpending', hended', hothers⟩ := h.locked r hr hold
        refine ⟨hpending', hended', SlackState.alone_iff.mpr fun r' hr' hdestination hne => ?_⟩
        obtain ⟨hdead, hfree'⟩ := SlackState.alone_iff.mp hothers r' hr' hdestination hne
        refine ⟨hdead, hquiet r' hr' hfree' fun heq => ?_⟩
        -- the locked row of the destination would be another than the free one
        obtain rfl := houtbox.rows.unique.eq hr' hrow (heq.trans hrowId.symm)
        have hr := (halone' r hr hdestination.symm hne.symm).2
        rw [hold] at hr
        cases hr
      · obtain rfl := houtbox.rows.unique.eq hr hrow (heq.trans hrowId.symm)
        refine ⟨hpending, fun u hu => ?_, SlackState.alone_iff.mpr fun r' hr' hdestination hne => ?_⟩
        · have hle : u ≤ c.observedAt := by
            rw [show r.claimUntil = some u from hu] at hended
            simpa using hended
          exact hle.trans (h.observed c hc)
        · obtain ⟨hdead, hfree'⟩ := halone' r' hr' hdestination hne
          exact ⟨hdead, hquiet r' hr' hfree' (heq ▸ hne)⟩

/-- **Claims commit**: what was locked is claimed, one message for each destination. -/
theorem commitClaim (h : LocksSound s) {c : SlackClaim} (hc : c ∈ s.claims) :
    LocksSound (s.commitClaim c) := by
  have hothers : ∀ id, (s.commitClaim c).locked id = true → s.locked id = true ∧ id ∉ c.locked := by
    intro id hid
    obtain ⟨c', hc', hin⟩ := SlackState.locked_iff.mp hid
    obtain ⟨hmem, hother⟩ := List.mem_filter.mp hc'
    refine ⟨SlackState.locked_iff.mpr ⟨c', hmem, hin⟩, fun hin' => ?_⟩
    rw [h.once c' hmem c hc id hin hin', bne_self_eq_false] at hother
    cases hother
  have hrow : ∀ m ∈ (s.commitClaim c).outbox, ∃ old ∈ s.outbox, old.id = m.id ∧
      old.destinationId = m.destinationId ∧ (m = old ∨ s.locked old.id = true ∧ old.id ∈ c.locked) := by
    intro m hm
    rcases mem_updateWhere_cases hm with ⟨hold, _⟩ | ⟨old, hold, hin, rfl⟩
    · exact ⟨m, hold, rfl, rfl, .inl rfl⟩
    · have hin' : old.id ∈ c.locked := by simpa using hin
      exact ⟨old, hold, rfl, rfl, .inr ⟨SlackState.locked_iff.mpr ⟨c, hc, hin'⟩, hin'⟩⟩
  refine ⟨h.tokens.sublist List.filter_sublist, fun c' hc' => h.observed c' (List.mem_of_mem_filter hc'),
    fun c₁ hc₁ c₂ hc₂ => h.once c₁ (List.mem_of_mem_filter hc₁) c₂ (List.mem_of_mem_filter hc₂),
    fun c' hc' => h.ids c' (List.mem_of_mem_filter hc'),
    fun m hm m' hm' hdestination hlive hlive' => ?_, fun m hm hlocked => ?_⟩
  · obtain ⟨old, hold, hid, hdest, hcase⟩ := hrow m hm
    obtain ⟨old', hold', hid', hdest', hcase'⟩ := hrow m' hm'
    have hsame : old.destinationId = old'.destinationId := hdest.trans (hdestination.trans hdest'.symm)
    rw [← hid, ← hid']
    by_contra hne
    rcases hcase with rfl | ⟨hlocked, _⟩
    · rcases hcase' with rfl | ⟨hlocked', _⟩
      · exact hne (h.alone m hold m' hold' hsame hlive hlive')
      · have hdead := (SlackState.alone_iff.mp (h.locked old' hold' hlocked').2.2 m hold hsame hne).1
        rw [show m.live s.clock = true from hlive] at hdead
        cases hdead
    · rcases hcase' with rfl | ⟨hlocked', _⟩
      · have hdead := (SlackState.alone_iff.mp (h.locked old hold hlocked).2.2 m' hold' hsame.symm
          (Ne.symm hne)).1
        rw [show m'.live s.clock = true from hlive'] at hdead
        cases hdead
      · have hfree := (SlackState.alone_iff.mp (h.locked old hold hlocked).2.2 old' hold' hsame.symm
          (Ne.symm hne)).2
        rw [hlocked'] at hfree
        cases hfree
  · obtain ⟨hold', hnot⟩ := hothers m.id hlocked
    obtain ⟨old, hold, hid, _, hcase⟩ := hrow m hm
    obtain rfl : m = old := by
      rcases hcase with heq | ⟨_, hin⟩
      · exact heq
      · rw [hid] at hin
        exact absurd hin hnot
    obtain ⟨hpending, hended, halone⟩ := h.locked m hold hold'
    refine ⟨hpending, hended, SlackState.alone_iff.mpr fun m' hm' hdestination hne => ?_⟩
    obtain ⟨old', hmem', hid', hdest', hcase'⟩ := hrow m' hm'
    obtain ⟨hdead, hfree⟩ := SlackState.alone_iff.mp halone old' hmem' (hdest'.trans hdestination)
      (hid' ▸ hne)
    have hunchanged : m' = old' := by
      rcases hcase' with heq | ⟨hin, _⟩
      · exact heq
      · rw [hfree] at hin
        cases hin
    subst hunchanged
    refine ⟨hdead, ?_⟩
    rw [← Bool.not_eq_true] at *
    exact fun hin => hfree (hothers m'.id hin).1

/-- **A claim is renewed** of a message that is alone. -/
theorem renew (h : LocksSound s) (id token : Nat) (claimUntil : Int)
    {leases : List SlackLease} (hunlocked : s.locked id = false)
    (halone : ∀ m ∈ s.outbox, m.claimedBy id token = true → s.alone m = true) :
    LocksSound { s with
      outbox := updateWhere (·.claimedBy id token) (fun m => { m with claimUntil := some claimUntil }) s.outbox
      leases } := by
  have hrow : ∀ m ∈ updateWhere (·.claimedBy id token)
      (fun m => { m with claimUntil := some claimUntil }) s.outbox, ∃ old ∈ s.outbox, old.id = m.id ∧
        old.destinationId = m.destinationId ∧ (m = old ∨ old.id = id ∧ s.alone old = true) := by
    intro m hm
    rcases mem_updateWhere_cases hm with ⟨hold, _⟩ | ⟨old, hold, hown, rfl⟩
    · exact ⟨m, hold, rfl, rfl, .inl rfl⟩
    · exact ⟨old, hold, rfl, rfl, .inr ⟨(SlackMessage.claimedBy_iff.mp hown).1, halone old hold hown⟩⟩
  refine ⟨h.tokens, h.observed, h.once, h.ids, fun m hm m' hm' hdestination hlive hlive' => ?_,
    fun m hm hlocked => ?_⟩
  · obtain ⟨old, hold, hid, hdest, hcase⟩ := hrow m hm
    obtain ⟨old', hold', hid', hdest', hcase'⟩ := hrow m' hm'
    have hsame : old.destinationId = old'.destinationId := hdest.trans (hdestination.trans hdest'.symm)
    rw [← hid, ← hid']
    by_contra hne
    rcases hcase with rfl | ⟨hown, hothers⟩
    · rcases hcase' with rfl | ⟨_, hothers'⟩
      · exact hne (h.alone m hold m' hold' hsame hlive hlive')
      · have hdead := (SlackState.alone_iff.mp hothers' m hold hsame hne).1
        rw [show m.live s.clock = true from hlive] at hdead
        cases hdead
    · rcases hcase' with rfl | ⟨hown', _⟩
      · have hdead := (SlackState.alone_iff.mp hothers m' hold' hsame.symm (Ne.symm hne)).1
        rw [show m'.live s.clock = true from hlive'] at hdead
        cases hdead
      · exact hne (hown.trans hown'.symm)
  · obtain ⟨old, hold, hid, _, hcase⟩ := hrow m hm
    have hlocked' : s.locked m.id = true := hlocked
    obtain rfl : m = old := by
      rcases hcase with heq | ⟨hown, _⟩
      · exact heq
      · rw [← hid, hown, hunlocked] at hlocked'
        cases hlocked'
    obtain ⟨hpending, hended, hothers⟩ := h.locked m hold hlocked'
    refine ⟨hpending, hended, SlackState.alone_iff.mpr fun m' hm' hdestination hne => ?_⟩
    obtain ⟨old', hmem', hid', hdest', hcase'⟩ := hrow m' hm'
    rcases hcase' with rfl | ⟨_, halone'⟩
    · exact SlackState.alone_iff.mp hothers m' hmem' hdestination hne
    · -- a locked message of the destination would not be alone with the renewed one
      have hfree := (SlackState.alone_iff.mp halone' m hold (hdestination.symm.trans hdest'.symm)
        (hid' ▸ hne.symm)).2
      rw [hlocked'] at hfree
      cases hfree

/-- A statement begins, and has locked nothing. -/
theorem beginClaim (h : LocksSound s) {c : SlackClaim} (htoken : c.token = s.nextToken) (hnone : c.locked = [])
    (hobserved : c.observedAt ≤ s.clock) :
    LocksSound { s with claims := s.claims ++ [c], nextToken := s.nextToken + 1 } := by
  have hlocks : ∀ c' ∈ s.claims ++ [c], ∀ id ∈ c'.locked, c' ∈ s.claims := by
    intro c' hc' id hid
    rcases List.mem_append.mp hc' with hold | hlast
    · exact hold
    · rw [List.mem_singleton.mp hlast, hnone] at hid
      cases hid
  refine h.of_quieter ⟨le_rfl, fun _ hm => .inr hm, fun id hid => ?_⟩ (h.tokens.append htoken)
    (fun c' hc' => ?_) (fun c₁ hc₁ c₂ hc₂ id hid hid' => ?_) fun c' hc' id hid => ?_
  · obtain ⟨c', hc', hin⟩ := SlackState.locked_iff.mp hid
    exact SlackState.locked_iff.mpr ⟨c', hlocks c' hc' id hin, hin⟩
  · rcases List.mem_append.mp hc' with hold | hlast
    · exact h.observed c' hold
    · rw [List.mem_singleton.mp hlast]
      exact hobserved
  · exact h.once c₁ (hlocks c₁ hc₁ id hid) c₂ (hlocks c₂ hc₂ id hid') id hid hid'
  · exact h.ids c' (hlocks c' hc' id hid) id hid

/-- **One step** that meets the condition keeps locks and claims apart. -/
theorem step (h : LocksSound s) (houtbox : OutboxSound s) (op : SlackOp) (hfree : op.claimsFree s = true) :
    LocksSound (s.step op) := by
  cases op with
  | tick elapsed =>
    exact h.same_claims (Int.le_add_of_nonneg_right (Int.natCast_nonneg elapsed)) rfl rfl le_rfl
      fun _ hm => .inr hm
  | configure workspaces destinations userRules =>
    exact h.same_claims le_rfl rfl rfl le_rfl fun _ hm => .inr hm
  | session old new now => exact h.enqueue _ now
  | todo old new todoId projectId completedByUserId now => exact h.enqueue _ now
  | claimDue observedAt limit leaseSeconds =>
    unfold SlackState.step
    dsimp only
    split
    · rename_i hvalid
      exact h.beginClaim rfl rfl hvalid.1
    · exact h
  | lockRow token => exact h.lockRow houtbox token hfree
  | commitClaim token =>
    unfold SlackState.step
    dsimp only
    split
    · exact h
    · rename_i c hfind
      split
      · exact h.commitClaim (List.mem_of_find?_eq_some hfind)
      · exact h
  | abortClaim token => exact h.fewer_claims _
  | renew id token observedAt leaseSeconds =>
    unfold SlackState.step SlackState.renewSlackMessageClaim
    dsimp only
    split
    · rename_i hvalid
      split
      · refine h.renew id token _ hvalid.2.2.2 fun m hm hown => ?_
        have hall := List.all_eq_true.mp hfree m hm
        rw [hown] at hall
        exact hall
      · exact h.same_claims le_rfl rfl rfl le_rfl fun _ hm => .inr hm
    · exact h
  | succeed id token providerTs observedAt =>
    unfold SlackState.step
    dsimp only
    split
    · rename_i hvalid
      exact h.settle id token (fun _ => rfl) hvalid.2
    · exact h
  | fail id token observedAt errorCode retrySeconds =>
    unfold SlackState.step
    dsimp only
    split
    · exact h
    · rename_i hunlocked
      exact h.settle id token (fun _ => rfl) (by simpa using hunlocked)

end LocksSound

/-! ## Leases -/

/-- An unexpired lease is on the row of its message. -/
structure LeasesSound (s : SlackState) : Prop where
  tokens : ∀ m ∈ s.outbox, ∀ token ∈ m.claimToken, token < s.nextToken ∧ ∀ c ∈ s.claims, c.token ≠ token
  leaseTokens : ∀ l ∈ s.leases, l.token < s.nextToken ∧ ∀ c ∈ s.claims, c.token ≠ l.token
  places : ∀ l ∈ s.leases, l.messageId < s.nextId ∧
    ∀ m ∈ s.outbox, m.id = l.messageId → m.destinationId = l.destinationId
  keys : UniqueKey (fun l => (l.messageId, l.token)) s.leases
  held : ∀ l ∈ s.leases, s.clock < l.claimUntil → ∃ m ∈ s.outbox, m.id = l.messageId ∧
    m.claimToken = some l.token ∧ m.claimUntil = some l.claimUntil ∧ m.pending = true

theorem SlackState.isLease_iff {id token : Nat} {l : SlackLease} :
    SlackState.isLease id token l = true ↔ l.messageId = id ∧ l.token = token := by
  unfold SlackState.isLease
  rw [Bool.and_eq_true, beq_iff_eq, beq_iff_eq]

namespace LeasesSound

variable {s : SlackState}

/-- Leases exclude each other: a row has one token. -/
theorem exclusive (h : LeasesSound s) (houtbox : OutboxSound s) {l l' : SlackLease} (hl : l ∈ s.leases)
    (hl' : l' ∈ s.leases) (hlive : s.clock < l.claimUntil) (hlive' : s.clock < l'.claimUntil)
    (hsame : l.messageId = l'.messageId) : l = l' := by
  obtain ⟨m, hm, hid, htoken, _, _⟩ := h.held l hl hlive
  obtain ⟨m', hm', hid', htoken', _, _⟩ := h.held l' hl' hlive'
  obtain rfl := houtbox.rows.unique.eq hm hm' (hid.trans (hsame.trans hid'.symm))
  exact h.keys.eq hl hl' (Prod.ext hsame (Option.some.inj (htoken.symm.trans htoken')))

/-- The leased messages of a destination are one. -/
theorem destination (h : LeasesSound s) (hlocks : LocksSound s) {l l' : SlackLease} (hl : l ∈ s.leases)
    (hl' : l' ∈ s.leases) (hlive : s.clock < l.claimUntil) (hlive' : s.clock < l'.claimUntil)
    (hsame : l.destinationId = l'.destinationId) : l.messageId = l'.messageId := by
  obtain ⟨m, hm, hid, _, huntil, hpending⟩ := h.held l hl hlive
  obtain ⟨m', hm', hid', _, huntil', hpending'⟩ := h.held l' hl' hlive'
  have hplace := (h.places l hl).2 m hm hid
  have hplace' := (h.places l' hl').2 m' hm' hid'
  rw [← hid, ← hid']
  refine hlocks.alone m hm m' hm' (hplace.trans (hsame.trans hplace'.symm)) ?_ ?_
  · exact SlackMessage.live_iff.mpr ⟨hpending, _, huntil, hlive⟩
  · exact SlackMessage.live_iff.mpr ⟨hpending', _, huntil', hlive'⟩

theorem insertMessage (h : LeasesSound s) (event : SlackEvent) (now : Int) (d : SlackDestination) :
    LeasesSound (SlackState.insertMessage event now s d) := by
  unfold SlackState.insertMessage
  split
  · exact h
  · refine ⟨fun m hm => ?_, h.leaseTokens, fun l hl => ?_, h.keys, fun l hl hlive => ?_⟩
    · rcases List.mem_append.mp hm with hold | hlast
      · exact h.tokens m hold
      · rw [List.mem_singleton.mp hlast]
        exact fun _ htoken => nomatch htoken
    · obtain ⟨hlt, hplaces⟩ := h.places l hl
      refine ⟨Nat.lt_succ_of_lt hlt, fun m hm hid => ?_⟩
      rcases List.mem_append.mp hm with hold | hlast
      · exact hplaces m hold hid
      · rw [List.mem_singleton.mp hlast] at hid
        exact absurd hid hlt.ne'
    · obtain ⟨m, hm, hrow⟩ := h.held l hl hlive
      exact ⟨m, List.mem_append_left _ hm, hrow⟩

theorem enqueue (h : LeasesSound s) (event : Option SlackEvent) (now : Int) :
    LeasesSound (s.enqueue event now) := by
  unfold SlackState.enqueue
  split
  · exact h
  · rename_i e
    generalize s.destinationsOf e = destinations
    induction destinations generalizing s with
    | nil => exact h
    | cons d rest ih => exact ih (h.insertMessage e now d)

/-- Fewer leases, and claims with no other tokens. -/
theorem fewer (h : LeasesSound s) {leases : List SlackLease} {claims : List SlackClaim}
    (hleases : leases.Sublist s.leases) (hclaims : ∀ c ∈ claims, ∃ c' ∈ s.claims, c'.token = c.token) :
    LeasesSound { s with leases, claims } where
  tokens m hm token htoken := by
    obtain ⟨hlt, hother⟩ := h.tokens m hm token htoken
    refine ⟨hlt, fun c hc => ?_⟩
    obtain ⟨c', hc', heq⟩ := hclaims c hc
    rw [← heq]
    exact hother c' hc'
  leaseTokens l hl := by
    obtain ⟨hlt, hother⟩ := h.leaseTokens l (hleases.subset hl)
    refine ⟨hlt, fun c hc => ?_⟩
    obtain ⟨c', hc', heq⟩ := hclaims c hc
    rw [← heq]
    exact hother c' hc'
  places l hl := h.places l (hleases.subset hl)
  keys := h.keys.sublist hleases
  held l hl := h.held l (hleases.subset hl)

/-- A worker settles its message, and gives its lease up. -/
theorem settle (h : LeasesSound s) (id token : Nat) {f : SlackMessage → SlackMessage}
    (hid : ∀ m, (f m).id = m.id) (hdestination : ∀ m, (f m).destinationId = m.destinationId) :
    LeasesSound (s.settle id token f) where
  tokens m hm := by
    rcases mem_updateWhere_cases hm with ⟨hold, _⟩ | ⟨old, hold, _, rfl⟩
    · exact h.tokens m hold
    · exact fun _ htoken => nomatch htoken
  leaseTokens l hl := h.leaseTokens l (List.mem_of_mem_filter hl)
  places l hl := by
    obtain ⟨hlt, hplaces⟩ := h.places l (List.mem_of_mem_filter hl)
    refine ⟨hlt, fun m hm heq => ?_⟩
    rcases mem_updateWhere_cases hm with ⟨hold, _⟩ | ⟨old, hold, _, rfl⟩
    · exact hplaces m hold heq
    · exact (hdestination old).trans (hplaces old hold ((hid old).symm.trans heq))
  keys := h.keys.sublist List.filter_sublist
  held l hl hlive := by
    obtain ⟨hmem, hother⟩ := List.mem_filter.mp hl
    obtain ⟨m, hm, hmessage, htoken, hrow⟩ := h.held l hmem hlive
    refine ⟨m, mem_updateWhere_of_false hm ?_, hmessage, htoken, hrow⟩
    rw [← Bool.not_eq_true, SlackMessage.claimedBy_iff]
    rintro ⟨hown, hown', _⟩
    rw [SlackState.isLease_iff.mpr ⟨hmessage.symm.trans hown,
      Option.some.inj (htoken.symm.trans hown')⟩] at hother
    cases hother

/-- **A lease is renewed**: it is on the row that has its token. -/
theorem renew (h : LeasesSound s) {id token : Nat} (claimUntil : Int)
    (hany : s.outbox.any (·.claimedBy id token) = true) :
    LeasesSound { s with
      outbox := updateWhere (·.claimedBy id token) (fun m => { m with claimUntil := some claimUntil }) s.outbox
      leases := updateWhere (SlackState.isLease id token) (fun l => { l with claimUntil }) s.leases } where
  tokens m hm := by
    rcases mem_updateWhere_cases hm with ⟨hold, _⟩ | ⟨old, hold, _, rfl⟩
    · exact h.tokens m hold
    · exact h.tokens old hold
  leaseTokens l hl := by
    rcases mem_updateWhere_cases hl with ⟨hold, _⟩ | ⟨old, hold, _, rfl⟩
    · exact h.leaseTokens l hold
    · exact h.leaseTokens old hold
  places l hl := by
    have hplaces : l.messageId < s.nextId ∧
        ∀ m ∈ s.outbox, m.id = l.messageId → m.destinationId = l.destinationId := by
      rcases mem_updateWhere_cases hl with ⟨hold, _⟩ | ⟨old, hold, _, rfl⟩
      · exact h.places l hold
      · exact h.places old hold
    refine ⟨hplaces.1, fun m hm hid => ?_⟩
    rcases mem_updateWhere_cases hm with ⟨hold, _⟩ | ⟨old, hold, _, rfl⟩
    · exact hplaces.2 m hold hid
    · exact hplaces.2 old hold hid
  keys := h.keys.updateWhere fun _ => rfl
  held l hl hlive := by
    obtain ⟨row, hrow, hown⟩ := List.any_eq_true.mp hany
    obtain ⟨hrowId, hrowToken, hpending⟩ := SlackMessage.claimedBy_iff.mp hown
    have hrenewed := mem_updateWhere_of_mem (p := (·.claimedBy id token))
      (f := fun m => { m with claimUntil := some claimUntil }) hrow
    rw [if_pos hown] at hrenewed
    rcases mem_updateWhere_cases hl with ⟨hold, hother⟩ | ⟨old, _, hlease, rfl⟩
    · obtain ⟨m, hm, hmessage, htoken, hrest⟩ := h.held l hold hlive
      refine ⟨m, mem_updateWhere_of_false hm ?_, hmessage, htoken, hrest⟩
      rw [← Bool.not_eq_true, SlackMessage.claimedBy_iff]
      rintro ⟨hsame, hsameToken, _⟩
      rw [SlackState.isLease_iff.mpr ⟨hmessage.symm.trans hsame,
        Option.some.inj (htoken.symm.trans hsameToken)⟩] at hother
      cases hother
    · obtain ⟨hmessage, htoken⟩ := SlackState.isLease_iff.mp hlease
      refine ⟨_, hrenewed, hrowId.trans hmessage.symm, ?_, rfl, hpending⟩
      rw [← htoken] at hrowToken
      exact hrowToken

/-- **Claims commit**: each worker gets leases on the rows it has claimed. -/
theorem commitClaim (h : LeasesSound s) (houtbox : OutboxSound s) (hlocks : LocksSound s) {c : SlackClaim}
    (hc : c ∈ s.claims) : LeasesSound (s.commitClaim c) where
  tokens m hm token htoken := by
    rcases mem_updateWhere_cases hm with ⟨hold, _⟩ | ⟨old, _, _, rfl⟩
    · obtain ⟨hlt, hother⟩ := h.tokens m hold token htoken
      exact ⟨hlt, fun c' hc' => hother c' (List.mem_of_mem_filter hc')⟩
    · obtain rfl := Option.some.inj htoken
      refine ⟨hlocks.tokens.below c hc, fun c' hc' => ?_⟩
      exact bne_iff_ne.mp (List.mem_filter.mp hc').2
  leaseTokens l hl := by
    rcases List.mem_append.mp hl with hold | hnew
    · obtain ⟨hlt, hother⟩ := h.leaseTokens l hold
      exact ⟨hlt, fun c' hc' => hother c' (List.mem_of_mem_filter hc')⟩
    · obtain ⟨m, _, rfl⟩ := List.mem_map.mp hnew
      refine ⟨hlocks.tokens.below c hc, fun c' hc' => ?_⟩
      exact bne_iff_ne.mp (List.mem_filter.mp hc').2
  places l hl := by
    have hplaces : l.messageId < s.nextId ∧
        ∀ m ∈ s.outbox, m.id = l.messageId → m.destinationId = l.destinationId := by
      rcases List.mem_append.mp hl with hold | hnew
      · exact h.places l hold
      · obtain ⟨m, hm, rfl⟩ := List.mem_map.mp hnew
        refine ⟨houtbox.rows.below m (List.mem_of_mem_filter hm), fun m' hm' hid => ?_⟩
        rw [houtbox.rows.unique.eq hm' (List.mem_of_mem_filter hm) hid]
    refine ⟨hplaces.1, fun m hm hid => ?_⟩
    rcases mem_updateWhere_cases hm with ⟨hold, _⟩ | ⟨old, hold, _, rfl⟩
    · exact hplaces.2 m hold hid
    · exact hplaces.2 old hold hid
  keys := by
    show (List.map _ (_ ++ _)).Nodup
    rw [List.map_append, List.nodup_append, List.map_map]
    refine ⟨h.keys, ?_, ?_⟩
    · have hrows : UniqueKey (·.id) (s.outbox.filter fun m => c.locked.contains m.id) :=
        houtbox.rows.unique.sublist List.filter_sublist
      refine List.Nodup.of_map Prod.fst ?_
      rw [List.map_map]
      exact hrows
    · intro a ha b hb heq
      obtain ⟨l, hl, rfl⟩ := List.mem_map.mp ha
      obtain ⟨m, _, rfl⟩ := List.mem_map.mp hb
      exact (h.leaseTokens l hl).2 c hc (Prod.mk.inj heq).2.symm
  held l hl hlive := by
    rcases List.mem_append.mp hl with hold | hnew
    · obtain ⟨m, hm, hmessage, htoken, huntil, hpending⟩ := h.held l hold hlive
      refine ⟨m, mem_updateWhere_of_false hm ?_, hmessage, htoken, huntil, hpending⟩
      -- a row that is locked has no claim that goes on
      rw [← Bool.not_eq_true]
      intro hin
      have hlocked := SlackState.locked_iff.mpr ⟨c, hc, List.contains_iff_mem.mp hin⟩
      exact absurd hlive (Int.not_lt.mpr ((hlocks.locked m hm hlocked).2.1 _ huntil))
    · obtain ⟨m, hm, rfl⟩ := List.mem_map.mp hnew
      obtain ⟨hmem, hin⟩ := List.mem_filter.mp hm
      have hclaimed := mem_updateWhere_of_mem (p := fun m : SlackMessage => c.locked.contains m.id)
        (f := fun m => { m with claimToken := some c.token
                                claimUntil := some (c.observedAt + seconds c.leaseSeconds) }) hmem
      rw [if_pos hin] at hclaimed
      have hlocked := SlackState.locked_iff.mpr ⟨c, hc, List.contains_iff_mem.mp hin⟩
      exact ⟨_, hclaimed, rfl, rfl, rfl, (hlocks.locked m hmem hlocked).1⟩

/-- The token of a statement that begins is new. -/
theorem beginClaim (h : LeasesSound s) {c : SlackClaim} (htoken : c.token = s.nextToken) :
    LeasesSound { s with claims := s.claims ++ [c], nextToken := s.nextToken + 1 } := by
  have hfresh : ∀ {token : Nat}, token < s.nextToken → (∀ c' ∈ s.claims, c'.token ≠ token) →
      token < s.nextToken + 1 ∧ ∀ c' ∈ s.claims ++ [c], c'.token ≠ token := by
    intro token hlt hother
    refine ⟨Nat.lt_succ_of_lt hlt, fun c' hc' => ?_⟩
    rcases List.mem_append.mp hc' with hold | hlast
    · exact hother c' hold
    · rw [List.mem_singleton.mp hlast, htoken]
      exact hlt.ne'
  exact ⟨fun m hm token htoken => hfresh (h.tokens m hm token htoken).1 (h.tokens m hm token htoken).2,
    fun l hl => hfresh (h.leaseTokens l hl).1 (h.leaseTokens l hl).2, h.places, h.keys, h.held⟩

/-- One step keeps leases on the rows of their messages, where locked rows are free. -/
theorem step (h : LeasesSound s) (houtbox : OutboxSound s) (hlocks : LocksSound s) (op : SlackOp) :
    LeasesSound (s.step op) := by
  cases op with
  | tick elapsed =>
    refine ⟨h.tokens, h.leaseTokens, h.places, h.keys, fun l hl hlive => h.held l hl ?_⟩
    have hle : s.clock ≤ s.clock + elapsed := Int.le_add_of_nonneg_right (Int.natCast_nonneg elapsed)
    exact Int.lt_of_le_of_lt hle hlive
  | configure workspaces destinations userRules => exact ⟨h.tokens, h.leaseTokens, h.places, h.keys, h.held⟩
  | session old new now => exact h.enqueue _ now
  | todo old new todoId projectId completedByUserId now => exact h.enqueue _ now
  | claimDue observedAt limit leaseSeconds =>
    unfold SlackState.step
    dsimp only
    split
    · exact h.beginClaim rfl
    · exact h
  | lockRow token =>
    refine h.fewer (List.Sublist.refl _) fun c hc => ?_
    rcases mem_updateWhere_cases hc with ⟨hold, _⟩ | ⟨old, hold, _, rfl⟩
    · exact ⟨c, hold, rfl⟩
    · exact ⟨old, hold, (LocksSound.lockRow_cases s old).1.symm⟩
  | commitClaim token =>
    unfold SlackState.step
    dsimp only
    split
    · exact h
    · rename_i c hfind
      split
      · exact h.commitClaim houtbox hlocks (List.mem_of_find?_eq_some hfind)
      · exact h
  | abortClaim token =>
    exact h.fewer (List.Sublist.refl _) fun c hc => ⟨c, List.mem_of_mem_filter hc, rfl⟩
  | renew id token observedAt leaseSeconds =>
    unfold SlackState.step SlackState.renewSlackMessageClaim
    dsimp only
    split
    · split
      · rename_i hany
        exact h.renew _ hany
      · exact h.fewer List.filter_sublist fun c hc => ⟨c, hc, rfl⟩
    · exact h
  | succeed id token providerTs observedAt =>
    unfold SlackState.step
    dsimp only
    split
    · exact h.settle id token (fun _ => rfl) fun _ => rfl
    · exact h
  | fail id token observedAt errorCode retrySeconds =>
    unfold SlackState.step
    dsimp only
    split
    · exact h
    · exact h.settle id token (fun _ => rfl) fun _ => rfl

end LeasesSound

/-! ## Runs -/

section

variable (clock : Int) (workspaces : List SlackWorkspace) (destinations : List SlackDestination)
variable (userRules : List SlackUserRule)

theorem outboxSound_start : OutboxSound (.start clock workspaces destinations userRules) where
  rows := .nil _ _
  events := List.nodup_nil
  keys _ hm := nomatch hm
  ended _ hm := nomatch hm

theorem locksSound_start : LocksSound (.start clock workspaces destinations userRules) where
  tokens := .nil _ _
  observed _ hc := nomatch hc
  once _ hc := nomatch hc
  ids _ hc := nomatch hc
  alone _ hm := nomatch hm
  locked _ hm := nomatch hm

theorem leasesSound_start : LeasesSound (.start clock workspaces destinations userRules) where
  tokens _ hm := nomatch hm
  leaseTokens _ hl := nomatch hl
  places _ hl := nomatch hl
  keys := List.nodup_nil
  held _ hl := nomatch hl

end

/-- **Slack deliveries are exclusive** in every run in which locked rows are free, and claims are renewed of
messages that are alone. -/
theorem slackDeliveries_run (clock : Int) (workspaces : List SlackWorkspace)
    (destinations : List SlackDestination) (userRules : List SlackUserRule) (ops : List SlackOp)
    (hfree : Guarded SlackState.step (fun s op => op.claimsFree s = true)
      (.start clock workspaces destinations userRules) ops) :
    SlackDeliveriesExclusive (run SlackState.step (.start clock workspaces destinations userRules) ops) := by
  obtain ⟨houtbox, hlocks, hleases⟩ := guarded_invariant
    (fun s => OutboxSound s ∧ LocksSound s ∧ LeasesSound s)
    (fun s op h hmeets => ⟨h.1.step op, h.2.1.step h.1 op hmeets, h.2.2.step h.1 h.2.1 op⟩)
    ⟨outboxSound_start clock workspaces destinations userRules,
      locksSound_start clock workspaces destinations userRules,
      leasesSound_start clock workspaces destinations userRules⟩ hfree
  exact {
    messages := fun l hl l' hl' => hleases.exclusive houtbox hl hl'
    destinations := fun l hl l' hl' => hleases.destination hlocks hl hl'
    ended := houtbox.ended
    terminal := fun op m hm => slack_terminal _ op hm
    enqueued := fun m hm m' hm' => houtbox.enqueued hm hm' }

/-- A session of a member begins. -/
def slackSession : WorkSession :=
  { id := 7, userId := some 2, deviceId := 1, projectId := some 3, taskId := none, status := .active, note := ""
    startedAt := 0, endedAt := none, createdAt := 0, updatedAt := 0 }

/-- A workspace with one channel. -/
def oneChannel : SlackState :=
  .start (minutes 1) [{ integrationId := 1, enabled := true, timerEvents := some true, todoEvents := none }]
    [{ id := 4, integrationId := 1, enabled := true }] []

/-- The second worker's statement finds the row locked; the first sends the message. -/
theorem slackDeliveries_run_skipped :
    SlackDeliveriesExclusive (run SlackState.step oneChannel
      [.session none slackSession 0, .claimDue (minutes 1) 25 180, .claimDue (minutes 1) 25 180, .lockRow 0,
       .lockRow 1, .commitClaim 0, .commitClaim 1, .tick 1000000, .renew 0 0 (minutes 1) 180,
       .succeed 0 0 "1712345678.000100" (minutes 1)]) :=
  slackDeliveries_run (minutes 1) _ _ _ _ (by decide +kernel)

/-- **Both workers get the message**: the second statement has its snapshot from before the first one's commit,
and locks the row after it. -/
theorem slackDeliveries_twoClaims :
    ¬ ∀ (clock : Int) (workspaces : List SlackWorkspace) (destinations : List SlackDestination)
      (userRules : List SlackUserRule) (ops : List SlackOp), SlackDeliveriesExclusive
        (run SlackState.step (.start clock workspaces destinations userRules) ops) := by
  intro h
  have hexclusive := (h (minutes 1) oneChannel.workspaces oneChannel.destinations []
    [.session none slackSession 0, .claimDue (minutes 1) 25 180, .claimDue (minutes 1) 25 180, .lockRow 0,
     .commitClaim 0, .lockRow 1, .commitClaim 1]).messages
  have htwo := hexclusive ⟨0, 4, 0, minutes 4⟩ (by decide +kernel) ⟨0, 4, 1, minutes 4⟩ (by decide +kernel)
    (by decide +kernel) (by decide +kernel) rfl
  exact absurd htwo (by decide)

end Dayfinch
