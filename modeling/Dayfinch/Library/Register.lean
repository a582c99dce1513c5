/-
# Dayfinch.Library.Register -- a register that keeps the newest version

Versions of a thing come in any order, any number of times, each with a stamp. The register takes a version
unless it holds one of a greater stamp; of two versions of one stamp it takes the one that comes later. What
it holds in the end is the last of the newest: nothing that came after it has its stamp.

`offerNewer` is the other rule for a tie: a version is taken only if its stamp is greater. Of versions whose
stamps differ both registers hold the same one.
-/
import Mathlib.Data.Int.Order.Basic
import Mathlib.Data.List.Induction

namespace Dayfinch.Library

universe u

variable {α : Type u} {stamp : α → Int}

/-- A version is offered to a register. -/
def offer (stamp : α → Int) : Option α → α → Option α
  | none, a => some a
  | some b, a => if stamp a < stamp b then some b else some a

theorem offer_stale {a b : α} (h : stamp a < stamp b) : offer stamp (some b) a = some b := if_pos h

theorem offer_taken {a b : α} (h : ¬ stamp a < stamp b) : offer stamp (some b) a = some a := if_neg h

/-- The register after a list of versions. -/
def newest (stamp : α → Int) (xs : List α) : Option α := xs.foldl (offer stamp) none

@[simp] theorem newest_nil : newest stamp ([] : List α) = none := rfl

theorem newest_concat (xs : List α) (a : α) : newest stamp (xs ++ [a]) = offer stamp (newest stamp xs) a := by
  simp [newest, List.foldl_append]

theorem newest_eq_none {xs : List α} : newest stamp xs = none ↔ xs = [] := by
  induction xs using List.reverseRecOn with
  | nil => simp
  | append_singleton xs a _ =>
    rw [newest_concat]
    cases newest stamp xs with
    | none => simp [offer]
    | some b =>
      simp only [offer, List.append_eq_nil_iff, List.cons_ne_self, and_false, iff_false]
      split
      · simp
      · simp

/-- **The register holds the last of the newest**: what came before has no greater stamp, and what came after
has a smaller one. -/
theorem newest_eq_some {xs : List α} {a : α} (h : newest stamp xs = some a) :
    ∃ before after, xs = before ++ a :: after ∧ (∀ x ∈ before, stamp x ≤ stamp a) ∧
      ∀ x ∈ after, stamp x < stamp a := by
  induction xs using List.reverseRecOn generalizing a with
  | nil => cases h
  | append_singleton xs b ih =>
    rw [newest_concat] at h
    cases hheld : newest stamp xs with
    | none =>
      rw [hheld] at h
      obtain rfl : b = a := Option.some.inj h
      rw [newest_eq_none.mp hheld]
      exact ⟨[], [], rfl, nofun, nofun⟩
    | some held =>
      rw [hheld] at h
      obtain ⟨before, after, rfl, hbefore, hafter⟩ := ih hheld
      by_cases hstale : stamp b < stamp held
      · -- the version is stale, and comes after what is held
        obtain rfl : held = a := Option.some.inj ((if_pos hstale).symm.trans h)
        refine ⟨before, after ++ [b], by simp, hbefore, fun x hx => ?_⟩
        rcases List.mem_append.mp hx with hx | hx
        · exact hafter x hx
        · rw [List.mem_singleton.mp hx]
          exact hstale
      · obtain rfl : b = a := Option.some.inj ((if_neg hstale).symm.trans h)
        refine ⟨before ++ held :: after, [], rfl, fun x hx => ?_, nofun⟩
        have hle : stamp held ≤ stamp b := not_lt.mp hstale
        rcases List.mem_append.mp hx with hx | hx
        · exact le_trans (hbefore x hx) hle
        · rcases List.mem_cons.mp hx with rfl | hx
          · exact hle
          · exact le_trans (le_of_lt (hafter x hx)) hle

/-! ## Strictly newer versions -/

/-- A version is offered to a register that takes newer ones only. -/
def offerNewer (stamp : α → Int) : Option α → α → Option α
  | none, a => some a
  | some b, a => if stamp a ≤ stamp b then some b else some a

theorem offerNewer_stale {a b : α} (h : stamp a ≤ stamp b) : offerNewer stamp (some b) a = some b := if_pos h

theorem offerNewer_taken {held : Option α} {a : α} (h : ∀ b, held = some b → stamp b < stamp a) :
    offerNewer stamp held a = some a := by
  cases held with
  | none => rfl
  | some b => exact if_neg (not_le.mpr (h b rfl))

/-- What such a register holds was held before or has been offered, and nothing of either is newer. -/
theorem foldl_offerNewer_eq_some {held : Option α} {xs : List α} {a : α}
    (h : xs.foldl (offerNewer stamp) held = some a) :
    (held = some a ∨ a ∈ xs) ∧ (∀ b, held = some b → stamp b ≤ stamp a) ∧ ∀ x ∈ xs, stamp x ≤ stamp a := by
  induction xs generalizing held with
  | nil =>
    obtain rfl : held = some a := h
    refine ⟨.inl rfl, fun b hb => ?_, nofun⟩
    rw [Option.some.inj hb]
  | cons x xs ih =>
    obtain ⟨hfrom, hheld, hrest⟩ := ih h
    cases held with
    | none =>
      have hx : stamp x ≤ stamp a := hheld x rfl
      refine ⟨.inr ?_, nofun, ?_⟩
      · rcases hfrom with hfrom | hfrom
        · rw [Option.some.inj hfrom]
          exact List.mem_cons_self
        · exact List.mem_cons_of_mem x hfrom
      · intro y hy
        rcases List.mem_cons.mp hy with rfl | hy
        · exact hx
        · exact hrest y hy
    | some b =>
      by_cases hstale : stamp x ≤ stamp b
      · rw [offerNewer_stale hstale] at hfrom hheld
        have hb : stamp b ≤ stamp a := hheld b rfl
        refine ⟨hfrom.imp_right (List.mem_cons_of_mem x), fun c hc => ?_, fun y hy => ?_⟩
        · rwa [← Option.some.inj hc]
        · rcases List.mem_cons.mp hy with rfl | hy
          · exact le_trans hstale hb
          · exact hrest y hy
      · rw [offerNewer, if_neg hstale] at hfrom hheld
        have hx : stamp x ≤ stamp a := hheld x rfl
        refine ⟨.inr ?_, fun c hc => ?_, fun y hy => ?_⟩
        · rcases hfrom with hfrom | hfrom
          · rw [Option.some.inj hfrom]
            exact List.mem_cons_self
          · exact List.mem_cons_of_mem x hfrom
        · rw [← Option.some.inj hc]
          exact le_trans (le_of_lt (not_le.mp hstale)) hx
        · rcases List.mem_cons.mp hy with rfl | hy
          · exact hx
          · exact hrest y hy

theorem foldl_offerNewer_eq_none {held : Option α} {xs : List α}
    (h : xs.foldl (offerNewer stamp) held = none) : held = none ∧ xs = [] := by
  induction xs generalizing held with
  | nil => exact ⟨h, rfl⟩
  | cons x xs ih =>
    have hoffered := (ih h).1
    cases held with
    | none => cases hoffered
    | some b =>
      rw [offerNewer] at hoffered
      split at hoffered <;> cases hoffered

end Dayfinch.Library
