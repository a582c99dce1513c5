/-
# Dayfinch.Library.Trace -- the events of a run

A state does not say how it came about. `trace` is what the operations of a run have done, event by event, each
operation from the state it was taken in; no state has to carry a history for it. `trace_invariant` is the rule of
`Library.Run` for a relation between the state and the events so far.
-/
import Dayfinch.Library.Run

namespace Dayfinch.Library

universe u v w

variable {σ : Type u} {α : Type v} {β : Type w} {step : σ → α → σ} {emit : σ → α → List β}

/-- The events of a run, in order; `emit s a` are those of the operation `a` in the state `s`. -/
def trace (step : σ → α → σ) (emit : σ → α → List β) : σ → List α → List β
  | _, [] => []
  | s, a :: ops => emit s a ++ trace step emit (step s a) ops

@[simp] theorem trace_nil (s : σ) : trace step emit s [] = [] := rfl

theorem trace_invariant_from (Inv : σ → List β → Prop)
    (hstep : ∀ s events a, Inv s events → Inv (step s a) (events ++ emit s a)) {s : σ} {events : List β}
    (hs : Inv s events) (ops : List α) : Inv (run step s ops) (events ++ trace step emit s ops) := by
  induction ops generalizing s events with
  | nil =>
    rw [trace_nil, List.append_nil]
    exact hs
  | cons a ops ih =>
    have hnext := ih (hstep s events a hs)
    rw [List.append_assoc] at hnext
    exact hnext

/-- **The rule for all runs.** -/
theorem trace_invariant (Inv : σ → List β → Prop)
    (hstep : ∀ s events a, Inv s events → Inv (step s a) (events ++ emit s a)) {s : σ} (hs : Inv s [])
    (ops : List α) : Inv (run step s ops) (trace step emit s ops) :=
  trace_invariant_from Inv hstep hs ops

end Dayfinch.Library
