/-
# Dayfinch.Library.Procedures -- computations that keep what they have done when they fail

A `Procedure` takes a state and gives a value or an error, and in both cases the state that it leaves:
files that were written and messages that were sent stay so when a later statement raises. A sequence
stops at the first error, and `withCleanup` is `try .. finally`: the cleanup runs in either case, and its
own error replaces the outcome.

The lemmas take a run apart: `run_bind` for what a sequence gives when its first part is known,
`Keeps` for a relation between the states before and after that every statement maintains.
-/
import Mathlib.Init

namespace Dayfinch.Library

universe u v w

/-- A computation on a state that may fail. -/
def Procedure (σ : Type u) (ε : Type v) (α : Type w) := σ → Except ε α × σ

namespace Procedure

variable {σ : Type u} {ε : Type v} {α β : Type w}

/-- What follows the first part of a sequence. -/
def next (f : α → Procedure σ ε β) : Except ε α × σ → Except ε β × σ
  | (.ok a, s) => f a s
  | (.error e, s) => (.error e, s)

instance : Monad (Procedure σ ε) where
  pure a s := (.ok a, s)
  bind x f s := next f (x s)

/-- Fails, without a change. -/
def raise (e : ε) : Procedure σ ε α := fun s => (.error e, s)

/-- The outcome of a computation without state. -/
def lift (x : Except ε α) : Procedure σ ε α := fun s => (x, s)

/-- The state. -/
def read : Procedure σ ε σ := fun s => (.ok s, s)

/-- Changes the state. -/
def modify (f : σ → σ) : Procedure σ ε PUnit := fun s => (.ok ⟨⟩, f s)

/-- `try: x finally: cleanup`. -/
def withCleanup (x : Procedure σ ε α) (cleanup : Procedure σ ε PUnit) : Procedure σ ε α := fun s =>
  match cleanup (x s).2 with
  | (.ok _, t) => ((x s).1, t)
  | (.error e, t) => (.error e, t)

/-! ## Running a sequence -/

@[simp] theorem run_pure (a : α) (s : σ) : (pure a : Procedure σ ε α) s = (.ok a, s) := rfl

@[simp] theorem run_lift (x : Except ε α) (s : σ) : (lift x : Procedure σ ε α) s = (x, s) := rfl

@[simp] theorem run_read (s : σ) : (read : Procedure σ ε σ) s = (.ok s, s) := rfl

@[simp] theorem run_modify (f : σ → σ) (s : σ) :
    (modify f : Procedure σ ε PUnit) s = (.ok ⟨⟩, f s) := rfl

theorem run_bind (x : Procedure σ ε α) (f : α → Procedure σ ε β) (s : σ) :
    (x >>= f) s = next f (x s) := rfl

@[simp] theorem next_ok (f : α → Procedure σ ε β) (a : α) (s : σ) : next f (.ok a, s) = f a s := rfl

@[simp] theorem next_error (f : α → Procedure σ ε β) (e : ε) (s : σ) :
    next f (.error e, s) = (.error e, s) := rfl

theorem run_bind_ok {x : Procedure σ ε α} {f : α → Procedure σ ε β} {s t : σ} {a : α}
    (h : x s = (.ok a, t)) : (x >>= f) s = f a t := by
  rw [run_bind, h, next_ok]

theorem run_bind_error {x : Procedure σ ε α} {f : α → Procedure σ ε β} {s t : σ} {e : ε}
    (h : x s = (.error e, t)) : (x >>= f) s = (.error e, t) := by
  rw [run_bind, h, next_error]

theorem lift_bind_ok {x : Except ε α} {f : α → Procedure σ ε β} {s : σ} {a : α} (h : x = .ok a) :
    (lift x >>= f) s = f a s := by
  rw [run_bind, run_lift, h, next_ok]

theorem lift_bind_error {x : Except ε α} {f : α → Procedure σ ε β} {s : σ} {e : ε} (h : x = .error e) :
    (lift x >>= f) s = (.error e, s) := by
  rw [run_bind, run_lift, h, next_error]

/-- A sequence that succeeds has succeeded in both parts. -/
theorem bind_eq_ok {x : Procedure σ ε α} {f : α → Procedure σ ε β} {s : σ} {b : β}
    (h : ((x >>= f) s).1 = .ok b) : ∃ a, (x s).1 = .ok a ∧ (f a (x s).2).1 = .ok b := by
  rw [run_bind] at h
  generalize x s = outcome at h
  obtain ⟨r, t⟩ := outcome
  cases r with
  | error e => cases h
  | ok a => exact ⟨a, rfl, h⟩

/-! ## What every statement maintains -/

/-- The states before and after are related, whatever the outcome. -/
def Keeps (R : σ → σ → Prop) (x : Procedure σ ε α) : Prop := ∀ s, R s (x s).2

variable {R : σ → σ → Prop}

theorem keeps_pure (hrefl : ∀ s, R s s) (a : α) : Keeps R (pure a : Procedure σ ε α) := fun s => hrefl s

theorem keeps_raise (hrefl : ∀ s, R s s) (e : ε) : Keeps R (raise e : Procedure σ ε α) := fun s => hrefl s

theorem keeps_lift (hrefl : ∀ s, R s s) (x : Except ε α) : Keeps R (lift x : Procedure σ ε α) :=
  fun s => hrefl s

theorem keeps_read (hrefl : ∀ s, R s s) : Keeps R (read : Procedure σ ε σ) := fun s => hrefl s

/-- **The rule of sequence.** -/
theorem Keeps.bind (htrans : ∀ s t u, R s t → R t u → R s u) {x : Procedure σ ε α}
    {f : α → Procedure σ ε β} (hx : Keeps R x) (hf : ∀ a, Keeps R (f a)) : Keeps R (x >>= f) := by
  intro s
  have hfirst := hx s
  rw [run_bind]
  generalize x s = outcome at hfirst
  obtain ⟨r, t⟩ := outcome
  cases r with
  | error e => exact hfirst
  | ok a => exact htrans s t _ hfirst (hf a t)

/-- The rule of the cleanup. -/
theorem Keeps.withCleanup (htrans : ∀ s t u, R s t → R t u → R s u) {x : Procedure σ ε α}
    {cleanup : Procedure σ ε PUnit} (hx : Keeps R x) (hcleanup : Keeps R cleanup) :
    Keeps R (withCleanup x cleanup) := by
  intro s
  have hlast := htrans s _ _ (hx s) (hcleanup (x s).2)
  unfold Procedure.withCleanup
  generalize cleanup (x s).2 = outcome at hlast
  obtain ⟨r, t⟩ := outcome
  cases r with
  | error e => exact hlast
  | ok u => exact hlast

end Procedure

end Dayfinch.Library
