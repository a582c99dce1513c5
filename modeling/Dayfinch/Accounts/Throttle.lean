/-
# Dayfinch.Accounts.Throttle -- how many passwords and codes can be tried

A request asks how many failures are recorded before it tries its password, and records its own failure afterwards.
Requests that run at once therefore all pass the same count: what bounds the guesses is the limit and the number of
requests that run at once (`Admitted`). A failure that is not recorded yet is a request at the stage `failed`, so that
none gets lost on the way (`Recorded`).

A right password clears the failures of its identity, from every source; `standing` are the failures that are left.
-/
import Dayfinch.Accounts.SignIn

namespace Dayfinch

namespace SignIn

open Library (run trace Guarded trace_invariant)

variable {c : Cryptography} {limits : Limits} {s : Store} {p : Flight}

/-! ## What a call does to the failures -/

/-- The request has passed the throttle. -/
def Stage.isAdmitted : Stage → Bool
  | .arrived | .identified _ | .enrolling _ => false
  | .admitted | .challenged _ | .failed | .passed _ | .cleared _ => true

/-- The request has failed and is about to say so. -/
def Stage.isFailed : Stage → Bool
  | .failed => true
  | _ => false

/-- The event is not about failures. -/
def SignInEvent.isQuiet : SignInEvent → Bool
  | .throttled _ _ | .failed _ | .failuresCleared _ => false
  | _ => true

/-- What a call may do to the failures and to the stage of its request. -/
inductive CallMove (limits : Limits) (s : Store) (p : Flight) : Outcome → Prop
  | quiet (outcome : Outcome) (hattempts : outcome.store.attempts = s.attempts) (hnow : outcome.store.now = s.now)
      (hfrom : p.stage.isFailed = false)
      (hnext : ∀ stage, outcome.next = some stage →
        stage.isFailed = false ∧ (stage.isAdmitted = true → p.stage.isAdmitted = true))
      (hevents : outcome.events.all (·.isQuiet) = true) : CallMove limits s p outcome
  | refused (h : loginIsRateLimited limits s p.identityHash p.sourceHash = true) (hfrom : p.stage.isFailed = false) :
      CallMove limits s p { store := s, events := [.throttled p.identityHash p.sourceHash] }
  | admitted (stage : Stage) (h : loginIsRateLimited limits s p.identityHash p.sourceHash = false)
      (hfrom : p.stage.isAdmitted = false) (hstage : stage.isFailed = false) :
      CallMove limits s p { store := s, next := some stage }
  | failed (hfrom : p.stage.isAdmitted = true) (hnot : p.stage.isFailed = false) : CallMove limits s p (fail s p)
  | recorded (hfrom : p.stage.isFailed = true) (hadmitted : p.stage.isAdmitted = true) :
      CallMove limits s p { store := recordLoginFailure s p.identityHash p.sourceHash }
  | cleared (user : SignInUser) (hfrom : p.stage = .passed user) :
      CallMove limits s p { store := clearLoginFailures s p.identityHash, next := some (.cleared user),
                            events := [.failuresCleared p.identityHash] }

/-- A call that ends the request without a word about failures. -/
theorem CallMove.ends {store : Store} {events : List SignInEvent} (hattempts : store.attempts = s.attempts)
    (hnow : store.now = s.now) (hfrom : p.stage.isFailed = false)
    (hevents : events.all (·.isQuiet) = true) : CallMove limits s p { store, events } :=
  .quiet _ hattempts hnow hfrom nofun hevents

theorem askThrottle_move {next : Stage} (hfrom : p.stage.isAdmitted = false) (hfailed : p.stage.isFailed = false)
    (hnext : next.isFailed = false) : CallMove limits s p (askThrottle limits s p next) := by
  unfold askThrottle
  split
  · exact .refused ‹_› hfailed
  · exact .admitted next ((Bool.not_eq_true _).mp ‹_›) hfrom hnext

theorem finishLogin_move {user : SignInUser} {requireTwoFactor : Bool} (hfrom : p.stage.isFailed = false) :
    CallMove limits s p (finishLogin s user requireTwoFactor) := by
  unfold finishLogin
  split <;> exact .ends rfl rfl hfrom rfl

theorem tryCode_move {user : SignInUser} {code : String} (hfrom : p.stage.isAdmitted = true)
    (hfailed : p.stage.isFailed = false) : CallMove limits s p (tryCode c s p user code) := by
  unfold tryCode
  split
  · exact .ends rfl rfl hfailed rfl
  · exact .failed hfrom hfailed
  · refine .quiet _ rfl rfl hfailed ?_ rfl
    rintro _ ⟨⟩
    exact ⟨rfl, fun _ => hfrom⟩

theorem tryPassword_move {email password : String} (hfrom : p.stage.isAdmitted = true)
    (hfailed : p.stage.isFailed = false) : CallMove limits s p (tryPassword c s p email password) := by
  unfold tryPassword
  split
  · exact .failed hfrom hfailed
  · split
    · refine .quiet _ rfl rfl hfailed ?_ rfl
      rintro _ ⟨⟩
      exact ⟨rfl, fun _ => hfrom⟩
    · exact .failed hfrom hfailed

/-- **Every call is one of the moves.** -/
theorem call_move : CallMove limits s p (call c limits s p) := by
  obtain ⟨request, identityHash, sourceHash, stage⟩ := p
  cases stage with
  | arrived =>
    cases request with
    | login email password => exact askThrottle_move rfl rfl rfl
    | twoFactorVerify session code | twoFactorSetup session code =>
      unfold call
      dsimp only
      split
      · exact .ends rfl rfl rfl rfl
      · exact .quiet _ rfl rfl rfl (by rintro _ ⟨⟩; exact ⟨rfl, nofun⟩) rfl
    | twoFactorSetupPage session secret =>
      unfold call
      dsimp only
      split
      · exact .ends rfl rfl rfl rfl
      · unfold showSecret
        split
        · exact .quiet _ rfl rfl rfl (by rintro _ ⟨⟩; exact ⟨rfl, nofun⟩) rfl
        · exact .ends rfl rfl rfl rfl
  | identified user => exact askThrottle_move rfl rfl rfl
  | admitted =>
    cases request with
    | login email password => exact tryPassword_move rfl rfl
    | _ => exact .ends rfl rfl rfl rfl
  | challenged user =>
    cases request with
    | twoFactorVerify session code | twoFactorSetup session code => exact tryCode_move rfl rfl
    | _ => exact .ends rfl rfl rfl rfl
  | failed => exact .recorded rfl rfl
  | passed user => exact .cleared user rfl
  | cleared user =>
    cases request with
    | login email password => exact finishLogin_move rfl
    | _ => exact .ends rfl rfl rfl rfl
  | enrolling user => cases request <;> exact .ends rfl rfl rfl rfl

/-! ## Counting -/

/-- Which failures are counted: those of an identity, or those of a source. -/
abbrev Selection := String → String → Bool

/-- The attempts after `t` that are counted. -/
def countAttempts (sel : Selection) (t : Int) (attempts : List LoginAttempt) : Nat :=
  attempts.countP fun a => sel a.identityHash a.sourceHash && t < a.attemptedAt

/-- The requests at certain stages that are counted. -/
def countFlights (sel : Selection) (stages : Stage → Bool) (pending : List Flight) : Nat :=
  pending.countP fun p => sel p.identityHash p.sourceHash && stages p.stage

/-- What a request adds to the count. -/
def weight (sel : Selection) (stages : Stage → Bool) (p : Flight) (stage : Option Stage) : Nat :=
  if sel p.identityHash p.sourceHash && stage.any stages then 1 else 0

variable {sel : Selection} {stages : Stage → Bool} {next : Option Stage} {pending : List Flight} {i : Nat}

@[simp] theorem weight_none : weight sel stages p none = 0 := by
  unfold weight
  rw [Option.any_none, Bool.and_false, if_neg Bool.false_ne_true]

theorem weight_eq_zero {stage : Stage} (h : stages stage = false) : weight sel stages p (some stage) = 0 := by
  unfold weight
  rw [Option.any_some, h, Bool.and_false, if_neg Bool.false_ne_true]

theorem weight_next_eq_zero (h : ∀ stage, next = some stage → stages stage = false) :
    weight sel stages p next = 0 := by
  cases next with
  | none => exact weight_none
  | some stage => exact weight_eq_zero (h stage rfl)

theorem weight_eq {stage : Stage} (h : stages stage = true) :
    weight sel stages p (some stage) = if sel p.identityHash p.sourceHash then 1 else 0 := by
  unfold weight
  rw [Option.any_some, h, Bool.and_true]

theorem weight_le {stage : Stage} (h : ∀ st, next = some st → stages st = true → stages stage = true) :
    weight sel stages p next ≤ weight sel stages p (some stage) := by
  cases next with
  | none => simp
  | some st =>
    cases hst : stages st with
    | false => rw [weight_eq_zero hst]; exact Nat.zero_le _
    | true => rw [weight_eq hst, weight_eq (h st rfl hst)]

/-- A request that goes on is counted at its new stage and no more at the old one. -/
theorem countFlights_proceed (sel : Selection) (stages : Stage → Bool) (next : Option Stage)
    (h : pending[i]? = some p) :
    countFlights sel stages (proceed pending i p next) + weight sel stages p (some p.stage) =
      countFlights sel stages pending + weight sel stages p next := by
  obtain ⟨hi, rfl⟩ := List.getElem?_eq_some_iff.mp h
  unfold countFlights
  rw [← (List.getElem_cons_eraseIdx_perm hi).countP_eq, List.countP_cons]
  unfold proceed weight
  cases next with
  | none => simp [add_comm]
  | some stage =>
    simp only [Option.map_some, Option.toList_some, List.cons_append, List.nil_append, List.countP_cons,
      Option.any_some]
    omega

/-- A request that does not count for more than before. -/
theorem countFlights_proceed_le (h : pending[i]? = some p)
    (hweight : weight sel stages p next ≤ weight sel stages p (some p.stage)) :
    countFlights sel stages (proceed pending i p next) ≤ countFlights sel stages pending := by
  have hproceed := countFlights_proceed sel stages next h
  omega

/-! ## Failures -/

/-- The failures that happened. -/
def failures (events : List SignInEvent) : List LoginAttempt :=
  events.filterMap fun event =>
    match event with
    | .failed a => some a
    | _ => none

/-- A failure stands until those of its identity are cleared. -/
def keep (attempts : List LoginAttempt) (event : SignInEvent) : List LoginAttempt :=
  match event with
  | .failed a => a :: attempts
  | .failuresCleared identityHash => attempts.filter (·.identityHash != identityHash)
  | _ => attempts

/-- The failures on identities that no right password has cleared since. -/
def standing (events : List SignInEvent) : List LoginAttempt := events.foldl keep []

theorem failures_quiet {events : List SignInEvent} (h : events.all (·.isQuiet) = true) : failures events = [] := by
  refine List.filterMap_eq_nil_iff.mpr fun event hmem => ?_
  have hquiet := List.all_eq_true.mp h event hmem
  cases event <;> first | rfl | cases hquiet

theorem foldl_keep_quiet {events : List SignInEvent} (h : events.all (·.isQuiet) = true)
    (attempts : List LoginAttempt) : events.foldl keep attempts = attempts := by
  induction events generalizing attempts with
  | nil => rfl
  | cons event events ih =>
    rw [List.all_cons, Bool.and_eq_true] at h
    have hkeep : keep attempts event = attempts := by
      cases event <;> first | rfl | cases h.1
    rw [List.foldl_cons, hkeep]
    exact ih h.2 attempts

theorem standing_append (events more : List SignInEvent) :
    standing (events ++ more) = more.foldl keep (standing events) := List.foldl_append

theorem failures_append (events more : List SignInEvent) :
    failures (events ++ more) = failures events ++ failures more := List.filterMap_append

/-- What is counted of the failures that are not of an identity. -/
theorem countAttempts_filter (sel : Selection) (t : Int) (identityHash : String) (attempts : List LoginAttempt) :
    countAttempts sel t (attempts.filter (·.identityHash != identityHash)) =
      countAttempts (fun identity source => identity != identityHash && sel identity source) t attempts := by
  unfold countAttempts
  rw [List.countP_filter]
  exact List.countP_congr fun a _ => by
    rw [Bool.and_comm, Bool.and_assoc]

theorem countAttempts_mono {sel sel' : Selection} {t t' : Int} {attempts : List LoginAttempt}
    (h : ∀ identity source, sel identity source = true → sel' identity source = true) (ht : t' ≤ t) :
    countAttempts sel t attempts ≤ countAttempts sel' t' attempts := by
  refine List.countP_mono_left fun a _ ha => ?_
  simp only [Bool.and_eq_true, decide_eq_true_eq] at ha ⊢
  exact ⟨h _ _ ha.1, ht.trans_lt ha.2⟩

theorem countFlights_mono {sel' : Selection} {stages' : Stage → Bool}
    (h : ∀ identity source, sel identity source = true → sel' identity source = true)
    (hstages : ∀ stage, stages stage = true → stages' stage = true) :
    countFlights sel stages pending ≤ countFlights sel' stages' pending := by
  refine List.countP_mono_left fun p _ hp => ?_
  simp only [Bool.and_eq_true] at hp ⊢
  exact ⟨h _ _ hp.1, hstages _ hp.2⟩

/-- Deleting what is older than a day keeps what is counted of the last day. -/
theorem countAttempts_pruned {sel : Selection} {t now : Int} (ht : now - days 1 ≤ t) (attempts : List LoginAttempt) :
    countAttempts sel t (attempts.filter fun a => now - days 1 ≤ a.attemptedAt) = countAttempts sel t attempts := by
  unfold countAttempts
  rw [List.countP_filter]
  refine List.countP_congr fun a _ => ?_
  simp only [Bool.and_eq_true, decide_eq_true_eq]
  exact ⟨fun h => h.1, fun h => ⟨h, by omega⟩⟩

theorem countAttempts_cons_le (sel : Selection) (t : Int) (a : LoginAttempt) (attempts : List LoginAttempt) :
    countAttempts sel t (a :: attempts) ≤
      countAttempts sel t attempts + if sel a.identityHash a.sourceHash then 1 else 0 := by
  unfold countAttempts
  rw [List.countP_cons]
  refine Nat.add_le_add_left ?_ _
  cases sel a.identityHash a.sourceHash with
  | false => rfl
  | true =>
    rw [if_pos rfl]
    split <;> omega

theorem countAttempts_eq_zero {sel : Selection} {t : Int} {attempts : List LoginAttempt}
    (h : ∀ a ∈ attempts, a.attemptedAt ≤ t) : countAttempts sel t attempts = 0 := by
  refine List.countP_eq_zero.mpr fun a ha hcount => ?_
  simp only [Bool.and_eq_true, decide_eq_true_eq] at hcount
  have hle := h a ha
  omega

/-! ## Nothing is lost -/

/-- The attempts that are counted, at any time. -/
def countAll (sel : Selection) (attempts : List LoginAttempt) : Nat :=
  attempts.countP fun a => sel a.identityHash a.sourceHash

/-- What the table of attempts says of the failures that happened. -/
structure Recorded (limits : Limits) (s : Store) (events : List SignInEvent) : Prop where
  past : ∀ a ∈ standing events, a.attemptedAt ≤ s.now
  /-- A failure of the last day that stands is in the table, or is about to be. -/
  kept : ∀ sel t, s.now - days 1 ≤ t → countAttempts sel t (standing events) ≤
    countAttempts sel t s.attempts + countFlights sel Stage.isFailed s.pending
  /-- What is in the table has happened. -/
  happened : ∀ sel, countAll sel s.attempts + countFlights sel Stage.isFailed s.pending ≤
    countAll sel (failures events)
  /-- Who is refused has failed too often. -/
  earned : ∀ identityHash sourceHash, .throttled identityHash sourceHash ∈ events →
    limits.identityFailures ≤ countAll (fun identity _ => identity == identityHash) (failures events) ∨
      limits.sourceFailures ≤ countAll (fun _ source => source == sourceHash) (failures events)

theorem countAll_append {xs ys : List LoginAttempt} : countAll sel (xs ++ ys) = countAll sel xs + countAll sel ys :=
  List.countP_append

theorem countAll_filter_le (sel : Selection) (q : LoginAttempt → Bool) (attempts : List LoginAttempt) :
    countAll sel (attempts.filter q) ≤ countAll sel attempts :=
  List.filter_sublist.countP_le

/-- The refusal of the throttle, by the table. -/
theorem counted_of_isRateLimited {identityHash sourceHash : String}
    (h : loginIsRateLimited limits s identityHash sourceHash = true) :
    limits.identityFailures ≤ countAll (fun identity _ => identity == identityHash) s.attempts ∨
      limits.sourceFailures ≤ countAll (fun _ source => source == sourceHash) s.attempts := by
  unfold loginIsRateLimited at h
  rw [Bool.or_eq_true, decide_eq_true_eq, decide_eq_true_eq] at h
  exact h.imp (fun h => h.trans (countAll_filter_le (fun identity _ => identity == identityHash) _ _))
    fun h => h.trans (countAll_filter_le (fun _ source => source == sourceHash) _ _)

/-- Events that record nothing keep who is refused. -/
theorem earned_mono {events more : List SignInEvent} (h : Recorded limits s events)
    (hmore : ∀ identityHash sourceHash, .throttled identityHash sourceHash ∉ more) (identityHash sourceHash : String)
    (hmem : .throttled identityHash sourceHash ∈ events ++ more) :
    limits.identityFailures ≤ countAll (fun identity _ => identity == identityHash) (failures (events ++ more)) ∨
      limits.sourceFailures ≤ countAll (fun _ source => source == sourceHash) (failures (events ++ more)) := by
  have hbefore : .throttled identityHash sourceHash ∈ events :=
    (List.mem_append.mp hmem).resolve_right (hmore identityHash sourceHash)
  rw [failures_append, countAll_append, countAll_append]
  exact (h.earned _ _ hbefore).imp (fun h => h.trans (Nat.le_add_right _ _)) fun h => h.trans (Nat.le_add_right _ _)

theorem throttled_not_mem_quiet {events : List SignInEvent} (h : events.all (·.isQuiet) = true)
    (identityHash sourceHash : String) : .throttled identityHash sourceHash ∉ events := by
  intro hmem
  cases List.all_eq_true.mp h _ hmem

/-- A step that leaves the failures as they are. -/
theorem Recorded.quiet {events more : List SignInEvent} {t : Store} (h : Recorded limits s events)
    (hattempts : t.attempts = s.attempts) (hnow : s.now ≤ t.now)
    (hflights : ∀ sel, countFlights sel Stage.isFailed t.pending = countFlights sel Stage.isFailed s.pending)
    (hmore : more.all (·.isQuiet) = true) : Recorded limits t (events ++ more) where
  past := by
    rw [standing_append, foldl_keep_quiet hmore]
    exact fun a ha => (h.past a ha).trans hnow
  kept sel time htime := by
    rw [standing_append, foldl_keep_quiet hmore, hattempts, hflights]
    exact h.kept sel time (by omega)
  happened sel := by
    rw [failures_append, failures_quiet hmore, List.append_nil, hattempts, hflights]
    exact h.happened sel
  earned := earned_mono h (throttled_not_mem_quiet hmore)

/-- The request fails. -/
theorem Recorded.failed {events : List SignInEvent} (h : Recorded limits s events) (hp : s.pending[i]? = some p)
    (hnot : p.stage.isFailed = false) :
    Recorded limits { s with pending := proceed s.pending i p (some .failed) }
      (events ++ [.failed ⟨p.identityHash, p.sourceHash, s.now⟩]) where
  past := by
    rw [standing_append]
    rintro a (_ | ⟨_, ha⟩)
    · exact le_refl _
    · exact h.past a ha
  kept sel t ht := by
    have hflights := countFlights_proceed sel Stage.isFailed (some .failed) hp
    rw [weight_eq_zero hnot, weight_eq (show Stage.isFailed .failed = true from rfl)] at hflights
    have hkept := h.kept sel t ht
    rw [standing_append]
    have hcons := countAttempts_cons_le sel t ⟨p.identityHash, p.sourceHash, s.now⟩ (standing events)
    dsimp only at hcons
    show countAttempts sel t (⟨p.identityHash, p.sourceHash, s.now⟩ :: standing events) ≤
      countAttempts sel t s.attempts + countFlights sel Stage.isFailed (proceed s.pending i p (some .failed))
    omega
  happened sel := by
    have hflights := countFlights_proceed sel Stage.isFailed (some .failed) hp
    rw [weight_eq_zero hnot, weight_eq (show Stage.isFailed .failed = true from rfl)] at hflights
    have hhappened := h.happened sel
    have hone : countAll sel (failures [.failed ⟨p.identityHash, p.sourceHash, s.now⟩]) =
        if sel p.identityHash p.sourceHash then 1 else 0 := by
      show List.countP _ [_] = _
      rw [List.countP_singleton]
    rw [failures_append, countAll_append, hone]
    show countAll sel s.attempts + countFlights sel Stage.isFailed (proceed s.pending i p (some .failed)) ≤ _
    omega
  earned := earned_mono h fun identityHash sourceHash hmem => by cases List.mem_singleton.mp hmem

/-- The failure is recorded. -/
theorem Recorded.recorded {events : List SignInEvent} (h : Recorded limits s events) (hp : s.pending[i]? = some p)
    (hfailed : p.stage.isFailed = true) :
    Recorded limits { recordLoginFailure s p.identityHash p.sourceHash with pending := proceed s.pending i p none }
      (events ++ []) where
  past := by
    rw [List.append_nil]
    exact h.past
  kept sel t ht := by
    have hflights := countFlights_proceed sel Stage.isFailed none hp
    rw [weight_none, weight_eq hfailed] at hflights
    have hkept := h.kept sel t ht
    have hpruned : countAttempts sel t (recordLoginFailure s p.identityHash p.sourceHash).attempts =
        countAttempts sel t (⟨p.identityHash, p.sourceHash, s.now⟩ :: s.attempts) := countAttempts_pruned ht _
    rw [List.append_nil]
    show countAttempts sel t (standing events) ≤ countAttempts sel t
      (recordLoginFailure s p.identityHash p.sourceHash).attempts +
        countFlights sel Stage.isFailed (proceed s.pending i p none)
    rw [hpruned]
    by_cases hnow : t < s.now
    · have hcons : countAttempts sel t (⟨p.identityHash, p.sourceHash, s.now⟩ :: s.attempts) =
          countAttempts sel t s.attempts + if sel p.identityHash p.sourceHash then 1 else 0 := by
        unfold countAttempts
        rw [List.countP_cons, decide_eq_true hnow, Bool.and_true]
      rw [hcons]
      omega
    · -- No failure is from after `now`.
      rw [countAttempts_eq_zero fun a ha => (h.past a ha).trans (Int.not_lt.mp hnow)]
      exact Nat.zero_le _
  happened sel := by
    have hflights := countFlights_proceed sel Stage.isFailed none hp
    rw [weight_none, weight_eq hfailed] at hflights
    have hhappened := h.happened sel
    have hcons : countAll sel (recordLoginFailure s p.identityHash p.sourceHash).attempts ≤
        countAll sel s.attempts + if sel p.identityHash p.sourceHash then 1 else 0 := by
      refine (countAll_filter_le _ _ _).trans (le_of_eq ?_)
      unfold countAll
      rw [List.countP_cons]
    rw [List.append_nil]
    show countAll sel (recordLoginFailure s p.identityHash p.sourceHash).attempts +
      countFlights sel Stage.isFailed (proceed s.pending i p none) ≤ _
    omega
  earned := by
    rw [List.append_nil]
    exact h.earned

/-- The failures of an identity are cleared. -/
theorem Recorded.cleared {events : List SignInEvent} {user : SignInUser} (h : Recorded limits s events)
    (hp : s.pending[i]? = some p) (hpassed : p.stage = .passed user) :
    Recorded limits { clearLoginFailures s p.identityHash with
      pending := proceed s.pending i p (some (.cleared user)) } (events ++ [.failuresCleared p.identityHash]) := by
  have hflights : ∀ sel, countFlights sel Stage.isFailed (proceed s.pending i p (some (.cleared user))) =
      countFlights sel Stage.isFailed s.pending := by
    intro sel
    have hproceed := countFlights_proceed sel Stage.isFailed (some (.cleared user)) hp
    rw [hpassed, weight_eq_zero (show Stage.isFailed (.passed user) = false from rfl), weight_eq_zero (show Stage.isFailed (.cleared user) = false from rfl)] at hproceed
    exact hproceed
  refine ⟨?_, ?_, ?_, earned_mono h fun identityHash sourceHash hmem => by cases List.mem_singleton.mp hmem⟩
  · rw [standing_append]
    exact fun a ha => h.past a (List.mem_filter.mp ha).1
  · intro sel t ht
    rw [standing_append]
    show countAttempts sel t ((standing events).filter _) ≤ countAttempts sel t (s.attempts.filter _) +
      countFlights sel Stage.isFailed (proceed s.pending i p (some (.cleared user)))
    rw [hflights, countAttempts_filter, countAttempts_filter]
    refine (h.kept _ t ht).trans (Nat.add_le_add_left (countFlights_mono ?_ fun _ hstage => hstage) _)
    intro identity source hsel
    exact (Bool.and_eq_true _ _ ▸ hsel).2
  · intro sel
    rw [failures_append]
    show countAll sel (s.attempts.filter _) + countFlights sel Stage.isFailed (proceed _ _ _ _) ≤ countAll sel (_ ++ [])
    rw [hflights, List.append_nil]
    exact (Nat.add_le_add_right (countAll_filter_le _ _ _) _).trans (h.happened sel)

/-- What one call preserves. -/
theorem recorded_call {events : List SignInEvent} {outcome : Outcome} (h : Recorded limits s events)
    (hp : s.pending[i]? = some p) (hmove : CallMove limits s p outcome) :
    Recorded limits { outcome.store with pending := proceed s.pending i p outcome.next } (events ++ outcome.events) := by
  have hsame : ∀ next : Option Stage, p.stage.isFailed = false → (∀ stage, next = some stage → stage.isFailed = false) →
      ∀ sel, countFlights sel Stage.isFailed (proceed s.pending i p next) =
        countFlights sel Stage.isFailed s.pending := by
    intro next hfrom hnext sel
    have hproceed := countFlights_proceed sel Stage.isFailed next hp
    rw [weight_eq_zero hfrom, weight_next_eq_zero hnext] at hproceed
    exact hproceed
  cases hmove with
  | quiet outcome hattempts hnow hfrom hnext hevents =>
    exact h.quiet hattempts (le_of_eq hnow.symm) (hsame _ hfrom fun stage hstage => (hnext stage hstage).1) hevents
  | refused hlimited hfrom =>
    have hquiet : Recorded limits { s with pending := proceed s.pending i p none } (events ++ []) := h.quiet rfl le_rfl
      (hsame none hfrom nofun) rfl
    rw [List.append_nil] at hquiet
    have hfailures : failures (events ++ [.throttled p.identityHash p.sourceHash]) = failures events := by
      rw [failures_append]
      exact List.append_nil _
    refine ⟨?_, ?_, ?_, ?_⟩
    · rw [standing_append]
      exact hquiet.past
    · rw [standing_append]
      exact hquiet.kept
    · rw [hfailures]
      exact hquiet.happened
    -- Every row of the table is a failure that happened, so the count that refuses was earned.
    · intro identityHash sourceHash hmem
      rw [hfailures]
      rcases List.mem_append.mp hmem with hbefore | hnew
      · exact h.earned _ _ hbefore
      · cases List.mem_singleton.mp hnew
        exact (counted_of_isRateLimited hlimited).imp
          (fun hcount => hcount.trans ((Nat.le_add_right _ _).trans (h.happened _)))
          fun hcount => hcount.trans ((Nat.le_add_right _ _).trans (h.happened _))
  | admitted stage hlimited hfrom hstage =>
    refine h.quiet rfl le_rfl (hsame _ ?_ ?_) rfl
    · cases hstage' : p.stage <;> first | rfl | (rw [hstage'] at hfrom; cases hfrom)
    · rintro _ ⟨⟩
      exact hstage
  | failed hfrom hnot => exact h.failed hp hnot
  | recorded hfrom hadmitted => exact h.recorded hp hfrom
  | cleared user hfrom => exact h.cleared hp hfrom

/-- What every operation preserves. -/
theorem recorded_step (s : Store) (events : List SignInEvent) (op : SignInOp) (h : Recorded limits s events) :
    Recorded limits (step c limits s op) (events ++ emit c limits s op) := by
  cases op with
  | wait duration => exact h.quiet rfl (Int.le_add_of_nonneg_right (Int.natCast_nonneg _)) (fun _ => rfl) rfl
  | administer users requireTwoFactor => exact h.quiet rfl le_rfl (fun _ => rfl) rfl
  | request source request =>
    refine h.quiet rfl le_rfl (fun sel => ?_) rfl
    show countFlights sel Stage.isFailed (arrival c s source request :: s.pending) = _
    unfold countFlights
    rw [List.countP_cons_of_neg]
    show ¬ ((sel _ _ && false) = true)
    rw [Bool.and_false]
    exact Bool.false_ne_true
  | advance i =>
    unfold step emit
    dsimp only
    cases hp : s.pending[i]? with
    | none =>
      show Recorded limits s (events ++ [])
      rw [List.append_nil]
      exact h
    | some p => exact recorded_call h hp call_move
  | singleSignOn user requireTwoFactor =>
    unfold step emit
    dsimp only
    unfold finishLogin
    split <;> exact h.quiet rfl le_rfl (fun _ => rfl) rfl

/-! ## The bound -/

/-- The failures of an identity. -/
def ofIdentity (identityHash : String) : Selection := fun identity _ => identity == identityHash

/-- The failures from a source. -/
def fromSource (sourceHash : String) : Selection := fun _ source => source == sourceHash

/-- The attempts of the window that are counted, and the requests that have been admitted, are fewer than the limit
and the most requests that run at once together. -/
def Bounded (limits : Limits) (sel : Selection) (limit most : Nat) (s : Store) : Prop :=
  countAttempts sel (s.now - minutes limits.windowMinutes) s.attempts +
    countFlights sel Stage.isAdmitted s.pending < limit + most

/-- No more than `most` of the counted requests run after the step. -/
def AtMost (c : Cryptography) (limits : Limits) (sel : Selection) (most : Nat) (s : Store) (op : SignInOp) : Prop :=
  countFlights sel (fun _ => true) (step c limits s op).pending ≤ most

/-- Whoever passes the throttle has fewer failures than the limit. -/
def Checked (limits : Limits) (sel : Selection) (limit : Nat) : Prop :=
  ∀ (s : Store) (identityHash sourceHash : String), loginIsRateLimited limits s identityHash sourceHash = false →
    sel identityHash sourceHash = true →
      countAttempts sel (s.now - minutes limits.windowMinutes) s.attempts < limit

theorem countAttempts_eq {sel : Selection} {t : Int} {attempts : List LoginAttempt} :
    countAttempts sel t attempts =
      (attempts.filter fun a => t < a.attemptedAt).countP fun a => sel a.identityHash a.sourceHash := by
  unfold countAttempts
  rw [List.countP_filter]

theorem checked_identity (limits : Limits) (identityHash : String) :
    Checked limits (ofIdentity identityHash) limits.identityFailures := by
  intro s identity source h hsel
  unfold loginIsRateLimited at h
  rw [Bool.or_eq_false_iff, decide_eq_false_iff_not, Nat.not_le] at h
  rw [countAttempts_eq]
  obtain rfl : identity = identityHash := beq_iff_eq.mp hsel
  exact h.1

theorem checked_source (limits : Limits) (sourceHash : String) :
    Checked limits (fromSource sourceHash) limits.sourceFailures := by
  intro s identity source h hsel
  unfold loginIsRateLimited at h
  rw [Bool.or_eq_false_iff, decide_eq_false_iff_not, decide_eq_false_iff_not, Nat.not_le, Nat.not_le] at h
  rw [countAttempts_eq]
  obtain rfl : source = sourceHash := beq_iff_eq.mp hsel
  exact h.2

variable {limit most : Nat}

/-- A step that admits nobody and records nothing. -/
theorem Bounded.mono {t : Store} (h : Bounded limits sel limit most s)
    (hattempts : countAttempts sel (t.now - minutes limits.windowMinutes) t.attempts ≤
      countAttempts sel (s.now - minutes limits.windowMinutes) s.attempts)
    (hflights : countFlights sel Stage.isAdmitted t.pending ≤ countFlights sel Stage.isAdmitted s.pending) :
    Bounded limits sel limit most t := by
  unfold Bounded at h ⊢
  omega

/-- What one call preserves. -/
theorem bounded_call {outcome : Outcome} (hchecked : Checked limits sel limit) (h : Bounded limits sel limit most s)
    (hp : s.pending[i]? = some p) (hmove : CallMove limits s p outcome)
    (hmost : countFlights sel (fun _ => true) (proceed s.pending i p outcome.next) ≤ most) :
    Bounded limits sel limit most { outcome.store with pending := proceed s.pending i p outcome.next } := by
  cases hmove with
  | quiet outcome hattempts hnow hfrom hnext hevents =>
    refine h.mono (le_of_eq ?_)
      (countFlights_proceed_le hp (weight_le fun stage hstage => (hnext stage hstage).2))
    show countAttempts sel (outcome.store.now - _) outcome.store.attempts = _
    rw [hattempts, hnow]
  | refused hlimited hfrom => exact h.mono le_rfl (countFlights_proceed_le hp (weight_le nofun))
  | admitted stage hlimited hfrom hstage =>
    by_cases hsel : sel p.identityHash p.sourceHash = true
    · -- The one place where the count is asked: it says nothing of the others that run.
      have hcount := hchecked s p.identityHash p.sourceHash hlimited hsel
      have hadmitted : countFlights sel Stage.isAdmitted (proceed s.pending i p (some stage)) ≤ most :=
        (countFlights_mono (fun _ _ hsel => hsel) fun _ _ => rfl).trans hmost
      exact Nat.add_lt_add_of_lt_of_le hcount hadmitted
    · have hweight : weight sel Stage.isAdmitted p (some stage) = 0 := by
        unfold weight
        rw [(Bool.not_eq_true _).mp hsel, Bool.false_and, if_neg Bool.false_ne_true]
      exact h.mono le_rfl (countFlights_proceed_le hp (hweight ▸ Nat.zero_le _))
  | failed hfrom hnot => exact h.mono le_rfl (countFlights_proceed_le hp (weight_le fun _ _ _ => hfrom))
  | recorded hfrom hadmitted =>
    -- The failure counts in the table from now on, and its request no more.
    have hflights := countFlights_proceed sel Stage.isAdmitted none hp
    rw [weight_none, weight_eq hadmitted] at hflights
    have hrecorded : countAttempts sel (s.now - minutes limits.windowMinutes)
        (recordLoginFailure s p.identityHash p.sourceHash).attempts ≤
          countAttempts sel (s.now - minutes limits.windowMinutes) s.attempts +
            if sel p.identityHash p.sourceHash then 1 else 0 :=
      (List.filter_sublist.countP_le).trans (countAttempts_cons_le _ _ _ _)
    unfold Bounded at h ⊢
    show countAttempts sel (s.now - minutes limits.windowMinutes)
      (recordLoginFailure s p.identityHash p.sourceHash).attempts +
        countFlights sel Stage.isAdmitted (proceed s.pending i p none) < _
    omega
  | cleared user hfrom =>
    exact h.mono (List.filter_sublist.countP_le)
      (countFlights_proceed_le hp (weight_le fun _ _ _ => by rw [hfrom]; rfl))

/-- What every operation preserves, while no more than `most` requests run. -/
theorem bounded_step (hchecked : Checked limits sel limit) (s : Store) (op : SignInOp)
    (h : Bounded limits sel limit most s) (hmost : AtMost c limits sel most s op) :
    Bounded limits sel limit most (step c limits s op) := by
  cases op with
  | wait duration =>
    refine h.mono (countAttempts_mono (fun _ _ hsel => hsel) ?_) le_rfl
    show s.now - _ ≤ s.now + duration - _
    omega
  | administer users requireTwoFactor => exact h
  | request source request =>
    refine h.mono le_rfl (le_of_eq ?_)
    show countFlights sel Stage.isAdmitted (arrival c s source request :: s.pending) = _
    unfold countFlights
    rw [List.countP_cons_of_neg]
    show ¬ ((sel _ _ && false) = true)
    rw [Bool.and_false]
    exact Bool.false_ne_true
  | advance i =>
    unfold AtMost at hmost
    unfold step at hmost ⊢
    dsimp only at hmost ⊢
    cases hp : s.pending[i]? with
    | none => exact h
    | some p =>
      rw [hp] at hmost
      exact bounded_call hchecked h hp call_move hmost
  | singleSignOn user requireTwoFactor =>
    unfold step finishLogin
    dsimp only
    split <;> exact h

/-- What the throttle guarantees of a run. -/
structure ThrottleHolds (c : Cryptography) (limits : Limits) (initial : Store) (ops : List SignInOp) : Prop where
  /-- Wrong passwords and codes for an identity in the window, since a right one. -/
  identity : ∀ identityHash most,
    Guarded (step c limits) (AtMost c limits (ofIdentity identityHash) most) initial ops →
      countAttempts (ofIdentity identityHash)
          ((run (step c limits) initial ops).now - minutes limits.windowMinutes)
          (standing (trace (step c limits) (emit c limits) initial ops)) < limits.identityFailures + most
  /-- The same from a source. -/
  source : ∀ sourceHash most, Guarded (step c limits) (AtMost c limits (fromSource sourceHash) most) initial ops →
    countAttempts (fromSource sourceHash)
        ((run (step c limits) initial ops).now - minutes limits.windowMinutes)
        (standing (trace (step c limits) (emit c limits) initial ops)) < limits.sourceFailures + most
  /-- Nobody is refused without that many failures of the identity, or from the source. -/
  earned : ∀ identityHash sourceHash,
    .throttled identityHash sourceHash ∈ trace (step c limits) (emit c limits) initial ops →
      limits.identityFailures ≤
          countAll (ofIdentity identityHash) (failures (trace (step c limits) (emit c limits) initial ops)) ∨
        limits.sourceFailures ≤
          countAll (fromSource sourceHash) (failures (trace (step c limits) (emit c limits) initial ops))

/-- What is recorded after a run. -/
theorem recorded_run {initial : Store} (hattempts : initial.attempts = []) (hpending : initial.pending = [])
    (ops : List SignInOp) :
    Recorded limits (run (step c limits) initial ops) (trace (step c limits) (emit c limits) initial ops) := by
  refine trace_invariant (Recorded limits) (fun s events op h => recorded_step s events op h) ?_ ops
  refine ⟨nofun, fun _ _ _ => Nat.zero_le _, fun sel => ?_, nofun⟩
  rw [hattempts, hpending]
  exact le_rfl

/-- What stands in the window, by the limit and the requests that run. -/
theorem standing_lt (hchecked : Checked limits sel limit) (hpos : 0 < limit) {initial : Store}
    (hattempts : initial.attempts = []) (hpending : initial.pending = []) {ops : List SignInOp}
    (hmost : Guarded (step c limits) (AtMost c limits sel most) initial ops) :
    countAttempts sel ((run (step c limits) initial ops).now - minutes limits.windowMinutes)
      (standing (trace (step c limits) (emit c limits) initial ops)) < limit + most := by
  have hbounded : Bounded limits sel limit most (run (step c limits) initial ops) := by
    refine Library.guarded_invariant (Bounded limits sel limit most)
      (fun s op h hguard => bounded_step hchecked s op h hguard) ?_ hmost
    unfold Bounded
    rw [hattempts, hpending]
    exact Nat.lt_add_right most hpos
  have hrecorded : Recorded limits _ (trace (step c limits) (emit c limits) initial ops) :=
    recorded_run hattempts hpending ops
  have hkept := hrecorded.kept sel
    ((run (step c limits) initial ops).now - minutes limits.windowMinutes) (by
      have hday : minutes limits.windowMinutes ≤ days 1 := by
        have hwindow := limits.window_le
        unfold minutes days seconds
        omega
      omega)
  have hfailed : countFlights sel Stage.isFailed (run (step c limits) initial ops).pending ≤
      countFlights sel Stage.isAdmitted (run (step c limits) initial ops).pending :=
    countFlights_mono (fun _ _ hsel => hsel) fun stage hstage => by
      cases stage <;> first | rfl | cases hstage
  unfold Bounded at hbounded
  omega

/-- **The throttle.** However the requests run at once, from any sources and for any identities: in no window are there
as many wrong passwords and codes for an identity, since a right one, as the limit and the most requests that run at
once together, and the same holds from a source; and nobody is refused who did not earn it. -/
theorem throttle_holds (c : Cryptography) (limits : Limits) {initial : Store} (hattempts : initial.attempts = [])
    (hpending : initial.pending = []) (ops : List SignInOp) : ThrottleHolds c limits initial ops where
  identity identityHash _ h :=
    standing_lt (checked_identity limits identityHash) limits.identity_pos hattempts hpending h
  source sourceHash _ h := standing_lt (checked_source limits sourceHash) limits.source_pos hattempts hpending h
  earned := (recorded_run hattempts hpending ops).earned

/-- Two wrong sign-ins at once. -/
theorem throttle_holds_twoAtOnce :
    ThrottleHolds exampleCryptography (Limits.fromEnv 15 8 50) { now := 0 }
      [.request "192.0.2.1" (.login "owner@example.test" "wrong"), .request "192.0.2.1" (.login "owner@example.test" "bad"),
        .advance 0, .advance 1, .advance 0, .advance 1, .wait 1, .advance 1, .advance 0] :=
  throttle_holds exampleCryptography (Limits.fromEnv 15 8 50) rfl rfl _

end SignIn

end Dayfinch
