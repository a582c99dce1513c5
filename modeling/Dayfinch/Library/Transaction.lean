/-
# Dayfinch.Library.Transaction -- transactions at READ COMMITTED, statement by statement

A store is a committed state and the transactions that are running. A transaction is what it has still to do, the
locks it holds and the changes it has made; nobody else sees the changes before it commits, and every lock is
held until then. A statement reads the committed state with the transaction's own changes, it takes the locks it
names, and it waits while another transaction holds one that conflicts. What a statement does may depend on what
it reads, and it may leave further statements to do. A transaction may also be rolled back at any moment.

`interferenceFree` is the rule for such a store, after the method of proving each transaction by itself and then
that no other breaks its assertions: `Own` is what holds of a running transaction against the committed state,
and `Inv` what holds of the committed state.
-/
import Dayfinch.Library.Run
import Mathlib.Data.List.Perm.Basic

namespace Dayfinch.Library

universe u

/-! ## Locks -/

/-- How a lock is held. -/
inductive LockMode
  | shared | exclusive
  deriving DecidableEq, Repr

/-- Two transactions cannot both hold the locks `a` and `b`. -/
def conflicts {ι : Type u} [DecidableEq ι] (a b : ι × LockMode) : Bool :=
  a.1 == b.1 && !(a.2 == .shared && b.2 == .shared)

theorem conflicts_comm {ι : Type u} [DecidableEq ι] (a b : ι × LockMode) : conflicts a b = conflicts b a := by
  unfold conflicts
  rw [Bool.and_comm (a.2 == .shared), BEq.comm (a := a.1)]

/-! ## Transactions -/

/-- What a statement does: the locks it takes, the changes it makes, and the statements that come next. -/
structure Effect (ι α κ : Type u) where
  locks : List (ι × LockMode) := []
  changes : List κ := []
  todo : List α := []

/-- A running transaction; `request` is the call it executes. -/
structure Transaction (ρ ι α κ : Type u) where
  request : ρ
  locks : List (ι × LockMode) := []
  changes : List κ := []
  todo : List α

/-- The programs of a store: how a call begins, what a statement does on the state it reads, with a value `υ`
drawn at random, and what a change does. -/
structure Programs (σ ρ ι α κ υ ε : Type u) where
  start : σ → ρ → Option (List α)
  act : σ → υ → α → Except ε (Effect ι α κ)
  apply : σ → κ → σ

/-- The committed state and the running transactions. -/
structure Store (σ ρ ι α κ : Type u) where
  db : σ
  running : List (Transaction ρ ι α κ) := []

/-- A step of a store. -/
inductive StoreOp (ρ υ : Type u)
  | begin (request : ρ)
  | advance (i : Nat) (value : υ)
  | rollback (i : Nat)

variable {σ ρ ι α κ υ ε : Type u} [DecidableEq ι]

namespace Transaction

/-- The transaction after a statement. -/
def after (t : Transaction ρ ι α κ) (e : Effect ι α κ) (rest : List α) : Transaction ρ ι α κ where
  request := t.request
  locks := t.locks ++ e.locks
  changes := t.changes ++ e.changes
  todo := e.todo ++ rest

/-- A lock of the transaction conflicts with one of these. -/
def blocks (t : Transaction ρ ι α κ) (locks : List (ι × LockMode)) : Bool :=
  t.locks.any fun a => locks.any (conflicts a)

/-- No two locks of the transactions conflict. -/
def Apart (t o : Transaction ρ ι α κ) : Prop := ∀ a ∈ t.locks, ∀ b ∈ o.locks, conflicts a b = false

theorem Apart.symm {t o : Transaction ρ ι α κ} (h : t.Apart o) : o.Apart t := by
  intro a ha b hb
  rw [conflicts_comm]
  exact h b hb a ha

/-- A lock that is held exclusively is not held by anyone else. -/
theorem Apart.exclusive {t o : Transaction ρ ι α κ} (h : t.Apart o) {name : ι} {m : LockMode}
    (ht : (name, .exclusive) ∈ t.locks) (ho : (name, m) ∈ o.locks) : False := by
  have hfree := h _ ht _ ho
  simp [conflicts] at hfree

end Transaction

namespace Programs

variable (prog : Programs σ ρ ι α κ υ ε)

/-- What a transaction reads. -/
def view (db : σ) (t : Transaction ρ ι α κ) : σ := t.changes.foldl prog.apply db

/-- The next statement of the transaction at `i`, or its commit. -/
def advance (s : Store σ ρ ι α κ) (i : Nat) (value : υ) : Store σ ρ ι α κ :=
  match s.running[i]? with
  | none => s
  | some t =>
    let others := s.running.eraseIdx i
    match t.todo with
    | [] => { db := prog.view s.db t, running := others }
    | a :: rest =>
      match prog.act (prog.view s.db t) value a with
      | .error _ => { s with running := others }
      | .ok e =>
        if others.any (·.blocks e.locks) then s
        else { s with running := s.running.set i (t.after e rest) }

/-- One step. -/
def step (s : Store σ ρ ι α κ) : StoreOp ρ υ → Store σ ρ ι α κ
  | .begin request =>
    match prog.start s.db request with
    | none => s
    | some todo => { s with running := s.running ++ [{ request, todo }] }
  | .advance i value => prog.advance s i value
  | .rollback i => { s with running := s.running.eraseIdx i }

/-! ## The rule -/

/-- The proof obligations of `interferenceFree`. `guard` is a condition on the state that a transaction reads
and on what it has still to do. -/
structure Obligations (Inv : σ → Prop) (Own : σ → Transaction ρ ι α κ → Prop)
    (guard : σ → List α → Prop) : Prop where
  begins : ∀ {db request todo}, Inv db → prog.start db request = some todo →
    Own db { request, todo }
  acts : ∀ {db t a rest value e}, Inv db → Own db t → guard (prog.view db t) t.todo → t.todo = a :: rest →
    prog.act (prog.view db t) value a = .ok e → Own db (t.after e rest)
  commits : ∀ {db t}, Inv db → Own db t → t.todo = [] → Inv (prog.view db t)
  keeps : ∀ {db t o}, Inv db → Own db t → t.todo = [] → Own db o → t.Apart o → Own (prog.view db t) o

/-- What holds of a store: `Inv` of its committed state, `Own` of each transaction, and no conflicts. -/
structure Undisturbed (Inv : σ → Prop) (Own : σ → Transaction ρ ι α κ → Prop) (s : Store σ ρ ι α κ) :
    Prop where
  committed : Inv s.db
  own : ∀ t ∈ s.running, Own s.db t
  apart : s.running.Pairwise Transaction.Apart

/-- `guard` at a step of a store. -/
def guards (guard : σ → List α → Prop) (s : Store σ ρ ι α κ) : StoreOp ρ υ → Prop
  | .begin _ | .rollback _ => True
  | .advance i _ => ∀ t, s.running[i]? = some t → guard (prog.view s.db t) t.todo

instance decidableGuards (guard : σ → List α → Prop) [∀ db todo, Decidable (guard db todo)]
    (s : Store σ ρ ι α κ) : ∀ op : StoreOp ρ υ, Decidable (prog.guards guard s op)
  | .begin _ | .rollback _ => .isTrue trivial
  | .advance i _ =>
    decidable_of_iff (s.running[i]?.all fun t => decide (guard (prog.view s.db t) t.todo)) <| by
      simp [guards, Option.all_eq_true]

variable {prog} {Inv : σ → Prop} {Own : σ → Transaction ρ ι α κ → Prop} {guard : σ → List α → Prop}

/-- The transaction at `i` against the others. -/
theorem Undisturbed.split {s : Store σ ρ ι α κ} (h : Undisturbed Inv Own s) {i : Nat}
    {t : Transaction ρ ι α κ} (ht : s.running[i]? = some t) :
    Own s.db t ∧ (∀ o ∈ s.running.eraseIdx i, Own s.db o ∧ t.Apart o) ∧
      (s.running.eraseIdx i).Pairwise Transaction.Apart := by
  obtain ⟨hi, hget⟩ := List.getElem?_eq_some_iff.mp ht
  have hperm := List.getElem_cons_eraseIdx_perm hi
  rw [hget] at hperm
  have hapart := (hperm.pairwise_iff fun h => h.symm).mpr h.apart
  obtain ⟨hfirst, hrest⟩ := List.pairwise_cons.mp hapart
  refine ⟨h.own t (List.mem_of_getElem? ht), fun o ho => ⟨h.own o ?_, hfirst o ho⟩, hrest⟩
  exact List.mem_of_mem_eraseIdx ho

theorem Undisturbed.advance (hprog : prog.Obligations Inv Own guard) {s : Store σ ρ ι α κ}
    (h : Undisturbed Inv Own s) (i : Nat) (value : υ)
    (hguard : ∀ t, s.running[i]? = some t → guard (prog.view s.db t) t.todo) :
    Undisturbed Inv Own (prog.advance s i value) := by
  unfold Programs.advance
  cases ht : s.running[i]? with
  | none => exact h
  | some t =>
    obtain ⟨hown, hothers, hapart⟩ := h.split ht
    dsimp only
    cases htodo : t.todo with
    | nil =>
      -- the transaction commits, and the others see it
      refine ⟨hprog.commits h.committed hown htodo, fun o ho => ?_, hapart⟩
      exact hprog.keeps h.committed hown htodo (hothers o ho).1 (hothers o ho).2
    | cons a rest =>
      dsimp only
      cases hact : prog.act (prog.view s.db t) value a with
      | error e => exact ⟨h.committed, fun o ho => (hothers o ho).1, hapart⟩
      | ok e =>
        dsimp only
        split
        · exact h
        · rename_i hfree
          have hi : i < s.running.length := (List.getElem?_eq_some_iff.mp ht).1
          have hperm := List.set_perm_cons_eraseIdx hi (t.after e rest)
          have hnew := hprog.acts h.committed hown (hguard t ht) htodo hact
          refine ⟨h.committed, fun o ho => ?_, (hperm.pairwise_iff fun h => h.symm).mpr ?_⟩
          · cases List.mem_cons.mp (hperm.mem_iff.mp ho) with
            | inl hthis => exact hthis ▸ hnew
            | inr hother => exact (hothers o hother).1
          · refine List.pairwise_cons.mpr ⟨fun o ho a ha b hb => ?_, hapart⟩
            cases List.mem_append.mp ha with
            | inl hold => exact (hothers o ho).2 a hold b hb
            | inr hnew =>
              -- a lock that the statement has just taken
              rw [conflicts_comm]
              by_contra hconflict
              exact hfree (List.any_eq_true.mpr ⟨o, ho, List.any_eq_true.mpr
                ⟨b, hb, List.any_eq_true.mpr ⟨a, hnew, by simpa using hconflict⟩⟩⟩)

theorem Undisturbed.step (hprog : prog.Obligations Inv Own guard) {s : Store σ ρ ι α κ} {op : StoreOp ρ υ}
    (h : Undisturbed Inv Own s) (hguard : prog.guards guard s op) : Undisturbed Inv Own (prog.step s op) := by
  cases op with
  | begin request =>
    cases hstart : prog.start s.db request with
    | none =>
      simp only [Programs.step, hstart]
      exact h
    | some todo =>
      simp only [Programs.step, hstart]
      refine ⟨h.committed, fun t ht => ?_, List.pairwise_append.mpr ⟨h.apart, List.pairwise_singleton _ _,
        fun o _ t ht a _ b hb => ?_⟩⟩
      · cases List.mem_append.mp ht with
        | inl hold => exact h.own t hold
        | inr hnew =>
          rw [List.mem_singleton.mp hnew]
          exact hprog.begins h.committed hstart
      · rw [List.mem_singleton.mp ht] at hb
        exact absurd hb List.not_mem_nil
  | advance i value => exact h.advance hprog i value hguard
  | rollback i =>
    exact ⟨h.committed, fun t ht => h.own t (List.mem_of_mem_eraseIdx ht),
      h.apart.sublist (List.eraseIdx_sublist ..)⟩

/-- **Interference-freedom.** A store whose transactions meet the obligations is undisturbed after every run
whose steps meet the guard. -/
theorem interferenceFree (hprog : prog.Obligations Inv Own guard) {db : σ} (hdb : Inv db)
    {ops : List (StoreOp ρ υ)} (hg : Guarded prog.step (prog.guards guard) { db } ops) :
    Undisturbed Inv Own (run prog.step { db } ops) :=
  guarded_invariant (Undisturbed Inv Own) (fun _ _ h hguard => h.step hprog hguard)
    ⟨hdb, fun _ ht => absurd ht List.not_mem_nil, .nil⟩ hg

end Programs

end Dayfinch.Library
