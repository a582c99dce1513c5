/-
# Dayfinch.Library.Groups -- a list divided by a key

`groupBy key xs` is the loop `groups.setdefault(key(x), []).append(x)`: a dictionary from the keys that occur to
their elements, in the order in which the keys are met first. `IsGrouping` says what such a dictionary is, and
`groupBy_isGrouping` that the loop makes one; from it follow that sums over the groups are sums over the list
(`IsGrouping.sum`, `IsGrouping.sum_key`).

Amounts that are spread over days may be booked whole on a day of their own. Where that is never a later day than
those of the parts, the books of every day are right only if nothing was moved (`part_eq_zero_of_booked`).
-/
import Dayfinch.Library.Table
import Mathlib.Algebra.BigOperators.Group.List.Basic
import Mathlib.Algebra.BigOperators.Ring.Finset
import Mathlib.Algebra.Order.BigOperators.Group.Finset
import Mathlib.Algebra.Order.Ring.Int
import Mathlib.Data.List.Nodup

namespace Dayfinch.Library

universe u v

variable {α : Type u} {κ : Type v}

/-- The groups of a list: one for each key, with the elements of that key. -/
structure IsGrouping (key : α → κ) (xs : List α) (groups : List (κ × List α)) : Prop where
  keys : (groups.map Prod.fst).Nodup
  elements : ∀ group ∈ groups, group.2 ≠ [] ∧ ∀ x ∈ group.2, key x = group.1
  perm : (groups.flatMap Prod.snd).Perm xs

theorem IsGrouping.sum {key : α → κ} {xs : List α} {groups : List (κ × List α)} (h : IsGrouping key xs groups)
    (f : α → Int) : (groups.map fun group => (group.2.map f).sum).sum = (xs.map f).sum := by
  rw [← (h.perm.map f).sum_eq, List.flatMap, List.map_flatten, List.sum_flatten, List.map_map, List.map_map]
  rfl

variable [DecidableEq κ]

/-- `groups.setdefault(k, []).append(x)`. -/
def setdefaultAppend (k : κ) (x : α) : List (κ × List α) → List (κ × List α)
  | [] => [(k, [x])]
  | group :: groups =>
    if group.1 = k then (k, group.2 ++ [x]) :: groups else group :: setdefaultAppend k x groups

/-- The groups of a list by a key. -/
def groupBy (key : α → κ) (xs : List α) : List (κ × List α) :=
  xs.foldl (fun groups x => setdefaultAppend (key x) x groups) []

theorem map_fst_setdefaultAppend (k : κ) (x : α) (groups : List (κ × List α)) :
    (setdefaultAppend k x groups).map Prod.fst =
      if k ∈ groups.map Prod.fst then groups.map Prod.fst else groups.map Prod.fst ++ [k] := by
  induction groups with
  | nil => simp [setdefaultAppend]
  | cons group groups ih =>
    by_cases hk : group.1 = k
    · simp [setdefaultAppend, hk]
    · have hne : k ≠ group.1 := fun h => hk h.symm
      simp only [setdefaultAppend, hk, if_false, List.map_cons, ih, List.mem_cons, hne, false_or]
      split <;> rfl

theorem mem_setdefaultAppend {k : κ} {x : α} {groups : List (κ × List α)} {group : κ × List α}
    (h : group ∈ setdefaultAppend k x groups) :
    group ∈ groups ∨ ∃ xs, group = (k, xs ++ [x]) ∧ (xs = [] ∨ (k, xs) ∈ groups) := by
  induction groups with
  | nil =>
    rw [setdefaultAppend, List.mem_singleton] at h
    exact .inr ⟨[], h, .inl rfl⟩
  | cons first groups ih =>
    unfold setdefaultAppend at h
    split at h
    next hk =>
      rcases List.mem_cons.mp h with rfl | hrest
      · refine .inr ⟨first.2, rfl, .inr ?_⟩
        rw [← hk]
        exact List.mem_cons_self
      · exact .inl (List.mem_cons_of_mem _ hrest)
    next hk =>
      rcases List.mem_cons.mp h with rfl | hrest
      · exact .inl List.mem_cons_self
      · rcases ih hrest with hold | ⟨xs, hgroup, hxs⟩
        · exact .inl (List.mem_cons_of_mem _ hold)
        · exact .inr ⟨xs, hgroup, hxs.imp_right (List.mem_cons_of_mem _)⟩

theorem flatMap_setdefaultAppend (k : κ) (x : α) (groups : List (κ × List α)) :
    ((setdefaultAppend k x groups).flatMap Prod.snd).Perm (x :: groups.flatMap Prod.snd) := by
  induction groups with
  | nil => exact List.Perm.refl _
  | cons group groups ih =>
    unfold setdefaultAppend
    split
    · rw [List.flatMap_cons, List.flatMap_cons, List.append_assoc]
      exact List.perm_middle
    · rw [List.flatMap_cons, List.flatMap_cons]
      exact (ih.append_left _).trans List.perm_middle

/-- One step of the loop. -/
theorem IsGrouping.append {key : α → κ} {xs : List α} {groups : List (κ × List α)}
    (h : IsGrouping key xs groups) (x : α) :
    IsGrouping key (xs ++ [x]) (setdefaultAppend (key x) x groups) where
  keys := by
    rw [map_fst_setdefaultAppend]
    split
    next => exact h.keys
    next hnew =>
      refine List.nodup_append.mpr ⟨h.keys, List.nodup_singleton _, ?_⟩
      rintro k hk _ hthis rfl
      rw [List.mem_singleton] at hthis
      exact hnew (hthis ▸ hk)
  elements group hgroup := by
    rcases mem_setdefaultAppend hgroup with hold | ⟨ys, rfl, hys⟩
    · exact h.elements group hold
    · refine ⟨List.append_ne_nil_of_right_ne_nil _ (List.cons_ne_nil _ _), fun y hy => ?_⟩
      rcases List.mem_append.mp hy with hbefore | hthis
      · rcases hys with rfl | hmem
        · exact absurd hbefore List.not_mem_nil
        · exact (h.elements _ hmem).2 y hbefore
      · rw [List.mem_singleton.mp hthis]
  perm := by
    refine (flatMap_setdefaultAppend _ _ _).trans ((h.perm.cons x).trans ?_)
    exact (List.perm_append_singleton x xs).symm

/-- **The loop makes the groups of the list.** -/
theorem groupBy_isGrouping (key : α → κ) (xs : List α) : IsGrouping key xs (groupBy key xs) := by
  have hloop : ∀ (rest seen : List α) (groups : List (κ × List α)), IsGrouping key seen groups →
      IsGrouping key (seen ++ rest) (rest.foldl (fun groups x => setdefaultAppend (key x) x groups) groups) := by
    intro rest
    induction rest with
    | nil =>
      intro seen groups h
      rw [List.append_nil]
      exact h
    | cons x rest ih =>
      intro seen groups h
      rw [List.append_cons]
      exact ih (seen ++ [x]) _ (h.append x)
  exact hloop xs [] [] ⟨List.nodup_nil, fun _ h => absurd h List.not_mem_nil, List.Perm.refl _⟩

/-- The sum of one group is the sum over the elements of its key; there is no other group of that key. -/
theorem IsGrouping.sum_key {key : α → κ} {xs : List α} {groups : List (κ × List α)} (h : IsGrouping key xs groups)
    (k : κ) (f : α → Int) :
    (groups.map fun group => if group.1 = k then (group.2.map f).sum else 0).sum =
      (xs.map fun x => if key x = k then f x else 0).sum := by
  rw [← h.sum]
  refine congrArg List.sum (List.map_congr_left fun group hgroup => ?_)
  have hkeys := (h.elements group hgroup).2
  by_cases hk : group.1 = k
  · rw [if_pos hk]
    refine congrArg List.sum (List.map_congr_left fun x hx => ?_)
    rw [if_pos ((hkeys x hx).trans hk)]
  · rw [if_neg hk, List.map_congr_left (g := fun _ => 0) fun x hx => if_neg fun heq => hk ((hkeys x hx).symm.trans heq)]
    simp

/-! ## Amounts booked early -/

theorem sum_map_sub (f g : α → Int) (xs : List α) :
    (xs.map fun x => f x - g x).sum = (xs.map f).sum - (xs.map g).sum := by
  induction xs with
  | nil => rfl
  | cons x xs ih =>
    simp only [List.map_cons, List.sum_cons, ih]
    omega

theorem sum_map_finsetSum (days : Finset Int) (weight : Int → Int) (f : Int → α → Int) (xs : List α) :
    (xs.map fun x => ∑ day ∈ days, weight day * f day x).sum =
      ∑ day ∈ days, weight day * (xs.map (f day)).sum := by
  induction xs with
  | nil => simp
  | cons x xs ih =>
    simp only [List.map_cons, List.sum_cons, ih, mul_add]
    exact Finset.sum_add_distrib.symm

/-- What is booked whole on its own day has no part on another, if every day's books are right and no part is on
an earlier day. The parts are moved to earlier days only, so their first moment says how much was moved. -/
theorem part_eq_zero_of_booked {days : Finset Int} {xs : List α} {own total : α → Int} {part : Int → α → Int}
    (hnonneg : ∀ x ∈ xs, ∀ day ∈ days, 0 ≤ part day x)
    (hearly : ∀ x ∈ xs, ∀ day ∈ days, day < own x → part day x = 0)
    (htotal : ∀ x ∈ xs, total x = ∑ day ∈ days, part day x) (hown : ∀ x ∈ xs, own x ∈ days)
    (h : ∀ day ∈ days, (xs.map fun x => if own x = day then total x else 0).sum = (xs.map (part day)).sum) :
    ∀ x ∈ xs, ∀ day ∈ days, own x ≠ day → part day x = 0 := by
  have hterm : ∀ x ∈ xs, ∀ day ∈ days, 0 ≤ (day - own x) * part day x := by
    intro x hx day hday
    rcases lt_or_ge day (own x) with hlt | hge
    · rw [hearly x hx day hday hlt, mul_zero]
    · exact mul_nonneg (by omega) (hnonneg x hx day hday)
  have hmoment : (xs.map fun x => ∑ day ∈ days, (day - own x) * part day x).sum = 0 := by
    have hbooked : ∀ x ∈ xs, ∑ day ∈ days, (day - own x) * part day x =
        ∑ day ∈ days, day * (part day x - if own x = day then total x else 0) := by
      intro x hx
      have hdue : ∑ day ∈ days, day * (if own x = day then total x else 0) = own x * total x := by
        simp only [mul_ite, mul_zero]
        rw [Finset.sum_ite_eq, if_pos (hown x hx)]
      simp only [sub_mul, mul_sub, Finset.sum_sub_distrib]
      rw [hdue, ← Finset.mul_sum, ← htotal x hx]
    rw [List.map_congr_left hbooked, sum_map_finsetSum]
    refine Finset.sum_eq_zero fun day hday => ?_
    rw [sum_map_sub, h day hday, sub_self, mul_zero]
  intro x hx day hday hne
  have hzero := (sum_map_eq_zero_iff fun y hy => Finset.sum_nonneg (hterm y hy)).mp hmoment x hx
  have hmul := (Finset.sum_eq_zero_iff_of_nonneg (hterm x hx)).mp hzero day hday
  exact (mul_eq_zero.mp hmul).resolve_left (by omega)

end Dayfinch.Library
