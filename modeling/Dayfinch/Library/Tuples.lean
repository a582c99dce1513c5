/-
# Dayfinch.Library.Tuples -- tuples of any length, compared at their first difference

`tupleGt gt xs ys` compares as Python compares tuples: equal items are passed over, the first two that differ
are compared by `gt`, and of two tuples where one begins with all of the other the longer one is the greater.
Over a linear order that is the lexicographic order of lists (`tupleGt_iff_lt`), which is linear again.
-/
import Mathlib.Data.List.Lex
import Mathlib.Order.Lattice

namespace Dayfinch.Library

universe u

variable {α : Type u}

/-- `xs > ys` of two tuples, where `gt` compares their items. -/
def tupleGt [DecidableEq α] (gt : α → α → Bool) : List α → List α → Bool
  | [], _ => false
  | _ :: _, [] => true
  | x :: xs, y :: ys => if x = y then tupleGt gt xs ys else gt x y

/-- The first tuple differs from the second where it is below it, or it is a beginning of it. -/
def Below (below : α → α → Prop) (xs ys : List α) : Prop :=
  (∃ common x y restX restY, xs = common ++ x :: restX ∧ ys = common ++ y :: restY ∧ below x y) ∨
    ∃ rest, rest ≠ [] ∧ ys = xs ++ rest

theorem below_iff_lex {below : α → α → Prop} {xs ys : List α} : Below below xs ys ↔ List.Lex below xs ys := by
  constructor
  · rintro (⟨common, x, y, restX, restY, rfl, rfl, h⟩ | ⟨rest, hrest, rfl⟩)
    · exact List.Lex.append_left _ (.rel h) common
    · cases rest with
      | nil => exact absurd rfl hrest
      | cons y rest => simpa using List.Lex.append_left below (List.Lex.nil (a := y) (l := rest)) xs
  · intro h
    induction h with
    | nil => exact .inr ⟨_, by simp, rfl⟩
    | @cons a xs ys h ih =>
      rcases ih with ⟨common, x, y, restX, restY, rfl, rfl, hxy⟩ | ⟨rest, hrest, rfl⟩
      · exact .inl ⟨a :: common, x, y, restX, restY, rfl, rfl, hxy⟩
      · exact .inr ⟨rest, hrest, rfl⟩
    | @rel a xs b ys h => exact .inl ⟨[], a, b, xs, ys, rfl, rfl, h⟩

variable [LinearOrder α]

theorem tupleGt_iff_lt [DecidableEq α] {gt : α → α → Bool} (hgt : ∀ x y, gt x y = true ↔ y < x) (xs ys : List α) :
    tupleGt gt xs ys = true ↔ ys < xs := by
  induction xs generalizing ys with
  | nil => simp [tupleGt]
  | cons x xs ih =>
    cases ys with
    | nil => simp [tupleGt]
    | cons y ys =>
      unfold tupleGt
      by_cases hxy : x = y
      · subst hxy
        simp [ih]
      · rw [if_neg hxy, hgt, List.cons_lt_cons_iff]
        constructor
        · exact .inl
        · rintro (h | ⟨rfl, -⟩)
          · exact h
          · exact absurd rfl hxy

theorem below_iff_lt {below : α → α → Prop} (hbelow : ∀ x y, below x y ↔ x < y) {xs ys : List α} :
    Below below xs ys ↔ xs < ys := by
  rw [below_iff_lex]
  have : below = (· < ·) := by
    funext x y
    exact propext (hbelow x y)
  rw [this]
  exact Iff.rfl

end Dayfinch.Library
