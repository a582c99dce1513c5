/-
# Dayfinch.Library.Run -- runs of a deterministic step function, and the invariant rules

A system here is a step function `step : σ → α → σ`: from a state and one operation to the next
state. An operation that is refused leaves the state as it was, so a run is a fold and every list
of operations is a run.

Two rules carry every safety proof of the development. `run_invariant` packages the induction once:
what one step preserves holds after every run. `guarded_invariant` is the same rule for runs whose
steps all meet a guard, a condition on the operation and on the state it is taken from.
-/
import Mathlib.Data.List.Basic

namespace Dayfinch.Library

universe u v

variable {σ : Type u} {α : Type v}

/-! ## Runs -/

/-- The state after a run of operations. -/
def run (step : σ → α → σ) (s : σ) (ops : List α) : σ := ops.foldl step s

@[simp] theorem run_nil (step : σ → α → σ) (s : σ) : run step s [] = s := rfl

@[simp] theorem run_cons (step : σ → α → σ) (s : σ) (a : α) (ops : List α) :
    run step s (a :: ops) = run step (step s a) ops := rfl

theorem run_append (step : σ → α → σ) (s : σ) (xs ys : List α) :
    run step s (xs ++ ys) = run step (run step s xs) ys :=
  List.foldl_append

/-- **The invariant rule.** What every step preserves holds after every run. -/
theorem run_invariant {step : σ → α → σ} (Inv : σ → Prop)
    (hstep : ∀ s a, Inv s → Inv (step s a)) {s : σ} (hs : Inv s) (ops : List α) :
    Inv (run step s ops) := by
  induction ops generalizing s with
  | nil => exact hs
  | cons a ops ih => exact ih (hstep s a hs)

/-! ## Guarded runs -/

/-- Every step of the run meets `guard` at the state it is taken from. -/
def Guarded (step : σ → α → σ) (guard : σ → α → Prop) : σ → List α → Prop
  | _, [] => True
  | s, a :: ops => guard s a ∧ Guarded step guard (step s a) ops

@[simp] theorem guarded_nil (step : σ → α → σ) (guard : σ → α → Prop) (s : σ) :
    Guarded step guard s [] := trivial

@[simp] theorem guarded_cons (step : σ → α → σ) (guard : σ → α → Prop) (s : σ) (a : α)
    (ops : List α) :
    Guarded step guard s (a :: ops) ↔ guard s a ∧ Guarded step guard (step s a) ops := Iff.rfl

instance decidableGuarded (step : σ → α → σ) (guard : σ → α → Prop)
    [∀ s a, Decidable (guard s a)] : ∀ s ops, Decidable (Guarded step guard s ops)
  | _, [] => .isTrue trivial
  | s, a :: ops =>
    have := decidableGuarded step guard (step s a) ops
    inferInstanceAs (Decidable (guard s a ∧ Guarded step guard (step s a) ops))

/-- **The guarded invariant rule.** What every step that meets the guard preserves holds after
every run whose steps all meet it. -/
theorem guarded_invariant {step : σ → α → σ} {guard : σ → α → Prop} (Inv : σ → Prop)
    (hstep : ∀ s a, Inv s → guard s a → Inv (step s a)) {s : σ} (hs : Inv s) {ops : List α}
    (hg : Guarded step guard s ops) : Inv (run step s ops) := by
  induction ops generalizing s with
  | nil => exact hs
  | cons a ops ih =>
    obtain ⟨ha, hrest⟩ := hg
    exact ih (hstep s a hs ha) hrest

/-- A guard follows from another one by what holds in every run that meets that one. -/
theorem Guarded.of_invariant {step : σ → α → σ} {guard guard' : σ → α → Prop} (Inv : σ → Prop)
    (hstep : ∀ s a, Inv s → guard s a → Inv (step s a) ∧ guard' s a) {s : σ} (hs : Inv s)
    {ops : List α} (hg : Guarded step guard s ops) : Guarded step guard' s ops := by
  induction ops generalizing s with
  | nil => trivial
  | cons a ops ih =>
    obtain ⟨ha, hrest⟩ := hg
    exact ⟨(hstep s a hs ha).2, ih (hstep s a hs ha).1 hrest⟩

/-- A condition on the operations alone can join a guard. -/
theorem Guarded.and_of_forall {step : σ → α → σ} {guard : σ → α → Prop} {p : α → Prop} {s : σ}
    {ops : List α} (h : Guarded step guard s ops) (hp : ∀ a ∈ ops, p a) :
    Guarded step (fun s a => p a ∧ guard s a) s ops := by
  induction ops generalizing s with
  | nil => trivial
  | cons a ops ih =>
    obtain ⟨ha, hrest⟩ := h
    exact ⟨⟨hp a List.mem_cons_self, ha⟩,
      ih hrest fun b hb => hp b (List.mem_cons_of_mem a hb)⟩

theorem guarded_append {step : σ → α → σ} {guard : σ → α → Prop} {s : σ} {xs ys : List α} :
    Guarded step guard s (xs ++ ys) ↔
      Guarded step guard s xs ∧ Guarded step guard (run step s xs) ys := by
  induction xs generalizing s with
  | nil => simp
  | cons a xs ih => simp [ih, and_assoc]

/-- The first step of a run that does not meet the guard. -/
theorem exists_of_not_guarded {step : σ → α → σ} {guard : σ → α → Prop} {s : σ} {ops : List α}
    (h : ¬ Guarded step guard s ops) :
    ∃ before a after, ops = before ++ a :: after ∧ Guarded step guard s before ∧
      ¬ guard (run step s before) a := by
  induction ops generalizing s with
  | nil => exact absurd trivial h
  | cons a ops ih =>
    by_cases ha : guard s a
    · have hrest : ¬ Guarded step guard (step s a) ops := fun hrest => h ⟨ha, hrest⟩
      obtain ⟨before, b, after, rfl, hbefore, hb⟩ := ih hrest
      exact ⟨a :: before, b, after, rfl, ⟨ha, hbefore⟩, hb⟩
    · exact ⟨[], a, ops, rfl, trivial, ha⟩

/-! ## A cache and its dirty keys -/

section

universe w x

variable {κ : Type w} {V : Type x} {on : κ → Prop} {dirty dirty' : κ → Prop}
variable {value value' cached cached' : κ → V}

/-- Every key, of those that are cached, is dirty or has its value in the cache. -/
def Fresh (on dirty : κ → Prop) (value cached : κ → V) : Prop :=
  ∀ k, on k → ¬ dirty k → cached k = value k

/-- A change of the source that marks the keys whose value it changes, and keeps the marks. -/
theorem Fresh.change (h : Fresh on dirty value cached) (hkeeps : ∀ k, on k → dirty k → dirty' k)
    (hmarks : ∀ k, on k → value' k ≠ value k → dirty' k) : Fresh on dirty' value' cached := by
  intro k hon hclean
  have hsame : value' k = value k := by
    by_contra hne
    exact hclean (hmarks k hon hne)
  rw [hsame]
  exact h k hon fun hdirty => hclean (hkeeps k hon hdirty)

/-- A pass that writes nothing but values to the cache, and writes those whose mark it takes. -/
theorem Fresh.take (h : Fresh on dirty value cached)
    (hwrites : ∀ k, on k → cached' k = cached k ∨ cached' k = value k)
    (htakes : ∀ k, on k → dirty k → ¬ dirty' k → cached' k = value k) :
    Fresh on dirty' value cached' := by
  intro k hon hclean
  by_cases hdirty : dirty k
  · exact htakes k hon hdirty hclean
  · rcases hwrites k hon with hsame | hvalue
    · rw [hsame]
      exact h k hon hdirty
    · exact hvalue

end

end Dayfinch.Library
