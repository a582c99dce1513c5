/-
# Dayfinch.Library.Faults -- programs whose steps may fail, and that may be cut short

A `Program` is a sequence of atomic steps on a state. Each step can succeed, fail, or be the one before
which the machine stops. A step that fails leaves the state alone and hands over to its handler; a crash
ends the program where it stands. What a step reads before it acts decides what comes next.

`exec` runs a program against a list of fates, one for each step it comes to, so quantifying over the
list covers every failure and every crash point. `Meets` is the rule for it: a property of the state for
each way to end, checked step by step. `MeetsIf` is the same rule for what holds when no step fails.
-/
import Mathlib.Data.List.Basic

namespace Dayfinch.Library

universe u v

variable {σ : Type u}

/-! ## Programs -/

/-- What becomes of a step. -/
inductive Fate
  | succeeds | fails | crashes
  deriving DecidableEq, Repr

/-- How a program ends. -/
inductive Ending
  | returned | raised | crashed
  deriving DecidableEq, Repr

/-- A program; `next` and `handler` are chosen by the state that the step finds. -/
inductive Program (σ : Type u) : Type u
  | done
  | raise
  | step (act : σ → σ) (next : σ → Program σ) (handler : σ → Program σ)

namespace Program

/-- A step without a handler: its failure is the program's. -/
def attempt (act : σ → σ) (next : σ → Program σ) : Program σ := .step act next fun _ => .raise

/-- One attempted step for each item, and then the rest. -/
def each {ι : Type v} (act : ι → σ → σ) (rest : Program σ) : List ι → Program σ
  | [] => rest
  | i :: items => attempt (act i) fun _ => each act rest items

/-- Runs a program; steps beyond the end of the list succeed. -/
def exec : Program σ → List Fate → σ → σ × Ending
  | .done, _, s => (s, .returned)
  | .raise, _, s => (s, .raised)
  | .step act next handler, fates, s =>
    match fates.headD .succeeds with
    | .succeeds => (next s).exec fates.tail (act s)
    | .fails => (handler s).exec fates.tail s
    | .crashes => (s, .crashed)

/-- An attempted step against the fate that comes to it. -/
theorem exec_attempt (act : σ → σ) (next : σ → Program σ) (fates : List Fate) (s : σ) :
    (attempt act next).exec fates s =
      match fates.headD .succeeds with
      | .succeeds => (next s).exec fates.tail (act s)
      | .fails => (s, .raised)
      | .crashes => (s, .crashed) := rfl

/-! ## What holds where a program ends -/

/-- Wherever the program ends, the state satisfies `Q` for that ending. -/
def Meets (Q : Ending → σ → Prop) : Program σ → σ → Prop
  | .done, s => Q .returned s
  | .raise, s => Q .raised s
  | .step act next handler, s =>
    Q .crashed s ∧ (next s).Meets Q (act s) ∧ (handler s).Meets Q s

/-- **The rule for programs that may fail and crash.** -/
theorem exec_meets {Q : Ending → σ → Prop} {p : Program σ} {s : σ} (h : p.Meets Q s)
    (fates : List Fate) : Q (p.exec fates s).2 (p.exec fates s).1 := by
  induction p generalizing s fates with
  | done => exact h
  | raise => exact h
  | step act next handler ihnext ihhandler =>
    obtain ⟨hcrash, hnext, hhandler⟩ := h
    unfold exec
    split
    · exact ihnext s hnext fates.tail
    · exact ihhandler s hhandler fates.tail
    · exact hcrash

/-- An attempted step: the state before it must do for a failure and a crash. -/
theorem meets_attempt {Q : Ending → σ → Prop} {act : σ → σ} {next : σ → Program σ} {s : σ}
    (hcrash : Q .crashed s) (hraise : Q .raised s) (hnext : (next s).Meets Q (act s)) :
    (attempt act next).Meets Q s := ⟨hcrash, hnext, hraise⟩

/-- The rule for a step for each item: `P` is kept by every step, and what a step has done to its item,
`G`, stays done. -/
theorem meets_each {ι : Type v} {Q : Ending → σ → Prop} {G : ι → σ → Prop} {act : ι → σ → σ}
    {rest : Program σ} (hdone : ∀ i s, G i (act i s))
    (hstays : ∀ i j s, G i s → G i (act j s)) (items : List ι) :
    ∀ {P : σ → Prop} {s : σ}, (∀ s, P s → Q .crashed s ∧ Q .raised s) →
      (∀ i ∈ items, ∀ s, P s → P (act i s)) →
      (∀ s, P s → (∀ i ∈ items, G i s) → rest.Meets Q s) → P s → (each act rest items).Meets Q s := by
  induction items with
  | nil =>
    intro P s _ _ hrest hs
    exact hrest s hs (by simp)
  | cons i items ih =>
    intro P s hcut hstep hrest hs
    refine meets_attempt (hcut s hs).1 (hcut s hs).2 ?_
    refine ih (P := fun s => P s ∧ G i s) (fun s h => hcut s h.1) ?_ ?_
      ⟨hstep i List.mem_cons_self s hs, hdone i s⟩
    · intro j hj s h
      exact ⟨hstep j (List.mem_cons_of_mem i hj) s h.1, hstays i j s h.2⟩
    · intro s h hitems
      refine hrest s h.1 fun j hj => ?_
      rcases List.mem_cons.mp hj with rfl | hj
      · exact h.2
      · exact hitems j hj

/-! ## Programs whose steps may be known not to fail -/

/-- `Meets`, where a step fails only if `failing`. -/
def MeetsIf (failing : Prop) (Q : Ending → σ → Prop) : Program σ → σ → Prop
  | .done, s => Q .returned s
  | .raise, s => Q .raised s
  | .step act next handler, s =>
    Q .crashed s ∧ (next s).MeetsIf failing Q (act s) ∧ (failing → (handler s).MeetsIf failing Q s)

/-- **The rule for a list of fates without failures**, unless `failing`. -/
theorem exec_meetsIf {failing : Prop} {Q : Ending → σ → Prop} {p : Program σ} {s : σ}
    (h : p.MeetsIf failing Q s) (fates : List Fate) (hfates : Fate.fails ∈ fates → failing) :
    Q (p.exec fates s).2 (p.exec fates s).1 := by
  induction p generalizing s fates with
  | done => exact h
  | raise => exact h
  | step act next handler ihnext ihhandler =>
    obtain ⟨hcrash, hnext, hhandler⟩ := h
    have htail : Fate.fails ∈ fates.tail → failing := fun hmem => hfates (List.mem_of_mem_tail hmem)
    unfold exec
    split
    · exact ihnext s hnext fates.tail htail
    · next hfate =>
      refine ihhandler s (hhandler (hfates ?_)) fates.tail htail
      rcases fates with _ | ⟨fate, fates⟩
      · simp at hfate
      · obtain rfl : fate = .fails := hfate
        exact List.mem_cons_self
    · exact hcrash

theorem MeetsIf.mono {failing : Prop} {Q Q' : Ending → σ → Prop} {p : Program σ} {s : σ}
    (h : p.MeetsIf failing Q s) (hQ : ∀ e s, Q e s → Q' e s) : p.MeetsIf failing Q' s := by
  induction p generalizing s with
  | done => exact hQ _ _ h
  | raise => exact hQ _ _ h
  | step act next handler ihnext ihhandler =>
    obtain ⟨hcrash, hnext, hhandler⟩ := h
    exact ⟨hQ _ _ hcrash, ihnext s hnext, fun hfailing => ihhandler s (hhandler hfailing)⟩

end Program

end Dayfinch.Library
