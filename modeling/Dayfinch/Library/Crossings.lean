/-
# Dayfinch.Library.Crossings -- the trail of one who moves between places

Samples say at which place one is, if at any. Read in order they leave a trail of moves: entering a place,
leaving one, or staying where one was. Only one move is written down for a sample, so going straight from a
place into another is written as an entry alone. On a path without such steps every place is entered and
left in turn, and a sample that repeats the place of the one before it adds to the trail and changes
nothing of it.
-/
import Mathlib.Data.List.Induction
import Mathlib.Tactic.Common

namespace Dayfinch.Library

universe u v

variable {κ : Type u} {τ : Type v}

/-! ## Moves -/

/-- What is written down for a sample. -/
inductive Move (κ : Type u)
  | stay (place : Option κ)
  | enter (place : κ)
  | leave (place : κ)
  deriving DecidableEq, Repr

/-- The place after a move. -/
def Move.after : Move κ → Option κ
  | .stay place => place
  | .enter place => some place
  | .leave _ => none

/-- Straight from one place into another. -/
def Direct (before after : Option κ) : Prop :=
  before.isSome ∧ after.isSome ∧ before ≠ after

theorem not_direct_self (place : Option κ) : ¬ Direct place place := fun h => h.2.2 rfl

/-- The place of the last sample. -/
def final (start : Option κ) (samples : List (τ × Option κ)) : Option κ :=
  (samples.getLast?.map (·.2)).getD start

@[simp] theorem final_nil (start : Option κ) : final start ([] : List (τ × Option κ)) = start := rfl

@[simp] theorem final_cons (start : Option κ) (sample : τ × Option κ) (rest : List (τ × Option κ)) :
    final start (sample :: rest) = final sample.2 rest := by
  unfold final
  rw [List.getLast?_cons]
  cases rest.getLast? <;> rfl

/-- No sample lies straight in another place than the one before it. -/
def Steady : Option κ → List (τ × Option κ) → Prop
  | _, [] => True
  | start, (_, place) :: rest => ¬ Direct start place ∧ Steady place rest

theorem steady_append {start : Option κ} {xs ys : List (τ × Option κ)} :
    Steady start (xs ++ ys) ↔ Steady start xs ∧ Steady (final start xs) ys := by
  induction xs generalizing start with
  | nil => simp [Steady]
  | cons x xs ih =>
    show _ ∧ Steady x.2 (xs ++ ys) ↔ (_ ∧ Steady x.2 xs) ∧ _
    rw [ih, final_cons, and_assoc]

theorem steady_repeat {start : Option κ} {xs ys : List (τ × Option κ)} (h : Steady start (xs ++ ys))
    (t : τ) : Steady start (xs ++ (t, final start xs) :: ys) := by
  obtain ⟨hxs, hys⟩ := steady_append.mp h
  exact steady_append.mpr ⟨hxs, not_direct_self _, hys⟩

/-- Entries (`true`) and exits in turn, where `inside` says whether one is there at first. -/
def Alternate : Bool → List Bool → Prop
  | _, [] => True
  | inside, pass :: rest => pass = !inside ∧ Alternate pass rest

section

variable [DecidableEq κ]

/-- The move between the places of two samples. -/
def Move.between : Option κ → Option κ → Move κ
  | some before, some after => if after ≠ before then .enter after else .stay (some after)
  | none, some after => .enter after
  | some before, none => .leave before
  | none, none => .stay none

@[simp] theorem Move.after_between (before after : Option κ) :
    (Move.between before after).after = after := by
  cases before with
  | none => cases after <;> rfl
  | some b =>
    cases after with
    | none => rfl
    | some a =>
      show (if a ≠ b then Move.enter a else Move.stay (some a)).after = some a
      split <;> rfl

@[simp] theorem Move.between_self (place : Option κ) : Move.between place place = .stay place := by
  cases place with
  | none => rfl
  | some place => simp [Move.between]

instance (before after : Option κ) : Decidable (Direct before after) :=
  inferInstanceAs (Decidable (_ ∧ _ ∧ _))

/-- Whether a move enters or leaves a place. -/
def Move.passes (place : κ) : Move κ → Option Bool
  | .stay _ => none
  | .enter other => if other = place then some true else none
  | .leave other => if other = place then some false else none

/-- A move that is not direct passes a place exactly when it changes whether one is there. -/
theorem Move.passes_between {before after : Option κ} (h : ¬ Direct before after) (place : κ) :
    (Move.between before after).passes place =
      if before = some place then (if after = some place then none else some false)
      else (if after = some place then some true else none) := by
  cases before with
  | none => cases after <;> simp [Move.between, Move.passes]
  | some b =>
    cases after with
    | none => simp [Move.between, Move.passes]
    | some a =>
      have hsame : a = b := by
        by_contra hne
        exact h ⟨rfl, rfl, fun heq => hne (Option.some.inj heq).symm⟩
      subst hsame
      by_cases hplace : a = place <;> simp [Move.passes, hplace]

/-! ## Trails -/

/-- The moves of the samples that follow the place `start`. -/
def trail (start : Option κ) : List (τ × Option κ) → List (τ × Move κ)
  | [] => []
  | (t, place) :: rest => (t, .between start place) :: trail place rest

theorem trail_append (start : Option κ) (xs ys : List (τ × Option κ)) :
    trail start (xs ++ ys) = trail start xs ++ trail (final start xs) ys := by
  induction xs generalizing start with
  | nil => rfl
  | cons x xs ih =>
    show (x.1, _) :: trail x.2 (xs ++ ys) = (x.1, _) :: trail x.2 xs ++ _
    rw [ih, final_cons]
    rfl

/-- A trail has the times of its samples. -/
theorem trail_times (start : Option κ) (samples : List (τ × Option κ)) :
    (trail start samples).map (·.1) = samples.map (·.1) := by
  induction samples generalizing start with
  | nil => rfl
  | cons x xs ih =>
    show x.1 :: (trail x.2 xs).map (·.1) = _
    rw [ih]
    rfl

/-- The place after the last move is the one of the last sample. -/
theorem trail_getLast? (start : Option κ) (samples : List (τ × Option κ)) :
    (trail start samples).getLast?.map (fun step => (step.1, step.2.after)) = samples.getLast? := by
  induction samples using List.reverseRecOn with
  | nil => rfl
  | append_singleton xs x =>
    rw [trail_append]
    show Option.map _ (_ ++ [(x.1, Move.between _ x.2)]).getLast? = _
    simp

/-- **A repeated place.** A sample at the place of the one before it adds a move that stays, and every
other move is as it was. -/
theorem trail_repeat (start : Option κ) (xs ys : List (τ × Option κ)) (t : τ) :
    trail start (xs ++ (t, final start xs) :: ys) =
      trail start xs ++ (t, .stay (final start xs)) :: trail (final start xs) ys := by
  rw [trail_append]
  show _ ++ (t, Move.between _ _) :: _ = _
  rw [Move.between_self]

/-! ## Paths without direct steps -/

instance decidableAlternate : ∀ inside passes, Decidable (Alternate inside passes)
  | _, [] => .isTrue trivial
  | inside, pass :: rest =>
    have := decidableAlternate pass rest
    inferInstanceAs (Decidable (pass = !inside ∧ Alternate pass rest))

/-- **Entries and exits of every place alternate** on a path without direct steps. -/
theorem alternate_trail {start : Option κ} {samples : List (τ × Option κ)} (h : Steady start samples)
    (place : κ) :
    Alternate (decide (start = some place)) ((trail start samples).filterMap fun step => step.2.passes place) := by
  induction samples generalizing start with
  | nil => trivial
  | cons x xs ih =>
    obtain ⟨hstep, hrest⟩ := h
    have hnext := ih hrest
    show Alternate _ (((x.1, Move.between start x.2) :: trail x.2 xs).filterMap _)
    rw [List.filterMap_cons]
    dsimp only
    rw [Move.passes_between hstep place]
    by_cases hbefore : start = some place
    · by_cases hafter : x.2 = some place
      · simpa [hbefore, hafter] using hnext
      · rw [if_pos hbefore, if_neg hafter]
        refine ⟨by simp [hbefore], ?_⟩
        simpa [hafter] using hnext
    · by_cases hafter : x.2 = some place
      · rw [if_neg hbefore, if_pos hafter]
        refine ⟨by simp [hbefore], ?_⟩
        simpa [hafter] using hnext
      · simpa [hbefore, hafter] using hnext

/-- **Whoever is no longer at a place has left it** on a path without direct steps. -/
theorem leave_mem_trail {start : Option κ} {xs ys : List (τ × Option κ)} {t : τ} {after : Option κ}
    (h : Steady start (xs ++ (t, after) :: ys)) {place : κ} (hbefore : final start xs = some place)
    (hafter : after ≠ some place) : (t, Move.leave place) ∈ trail start (xs ++ (t, after) :: ys) := by
  obtain ⟨_, hdirect, _⟩ := steady_append.mp h
  have houtside : after = none := by
    cases after with
    | none => rfl
    | some other =>
      refine absurd ⟨?_, rfl, ?_⟩ hdirect
      · rw [hbefore]
        rfl
      · rw [hbefore]
        exact fun heq => hafter heq.symm
  rw [trail_append, hbefore, houtside]
  exact List.mem_append_right _ List.mem_cons_self

end

end Dayfinch.Library
