/-
# Dayfinch.Library.Recurrence -- slots that recur once in every period

Time is divided into periods, and every period has one slot. `next` is the first slot after an instant,
and `window` is the period before the one an instant lies in. Between two slots there is one boundary of
periods, so an instant that follows a slot lies in the slot's period or in the next one; windows of
instants that follow consecutive slots are adjacent exactly when all of them lie on the same side
(`isChain_window_iff`).
-/
import Mathlib.Data.Int.ConditionallyCompleteOrder
import Mathlib.Data.Int.SuccPred
import Mathlib.Data.List.Chain
import Mathlib.Order.Iterate
import Mathlib.Order.SuccPred.IntervalSucc
import Mathlib.Tactic.Ring

namespace Dayfinch.Library

/-- Periods that follow each other, numbered by the integers, with one slot in each. -/
structure Recurrence where
  start : Int → Int
  period : Int → Int
  slot : Int → Int
  period_eq_iff : ∀ t k, period t = k ↔ start k ≤ t ∧ t < start (k + 1)
  start_le_slot : ∀ k, start k ≤ slot k
  slot_lt_start : ∀ k, slot k < start (k + 1)

namespace Recurrence

variable (r : Recurrence)

/-- The first slot after an instant. -/
def next (t : Int) : Int :=
  if t < r.slot (r.period t) then r.slot (r.period t) else r.slot (r.period t + 1)

/-- The period before the one of an instant, from its beginning to its end. -/
def window (t : Int) : Int × Int := (r.start (r.period t - 1), r.start (r.period t))

/-- The instant is the slot of its period. -/
def IsSlot (t : Int) : Prop := r.slot (r.period t) = t

variable {r}

theorem period_spec (t : Int) : r.start (r.period t) ≤ t ∧ t < r.start (r.period t + 1) :=
  (r.period_eq_iff t _).mp rfl

@[simp] theorem period_slot (k : Int) : r.period (r.slot k) = k :=
  (r.period_eq_iff _ _).mpr ⟨r.start_le_slot k, r.slot_lt_start k⟩

@[simp] theorem isSlot_slot (k : Int) : r.IsSlot (r.slot k) := by
  unfold IsSlot
  rw [period_slot]

theorem start_strictMono : StrictMono r.start := by
  apply strictMono_int_of_lt_succ
  intro k
  exact lt_of_le_of_lt (r.start_le_slot k) (r.slot_lt_start k)

theorem slot_strictMono : StrictMono r.slot := by
  apply strictMono_int_of_lt_succ
  intro k
  exact lt_of_lt_of_le (r.slot_lt_start k) (r.start_le_slot (k + 1))

theorem period_mono {t t' : Int} (h : t ≤ t') : r.period t ≤ r.period t' := by
  have hlt : r.start (r.period t) < r.start (r.period t' + 1) :=
    lt_of_le_of_lt ((period_spec t).1.trans h) (period_spec t').2
  exact Int.lt_add_one_iff.mp (start_strictMono.lt_iff_lt.mp hlt)

/-! ## The next slot -/

theorem next_eq_slot_succ {t k : Int} (hle : r.slot k ≤ t) (hlt : t < r.slot (k + 1)) :
    r.next t = r.slot (k + 1) := by
  have hperiod : k ≤ r.period t ∧ r.period t ≤ k + 1 := by
    constructor
    · rw [← period_slot (r := r) k]
      exact period_mono hle
    · rw [← period_slot (r := r) (k + 1)]
      exact period_mono hlt.le
  unfold next
  rcases Int.lt_or_eq_of_le hperiod.1 with hlater | hsame
  · have hnext : r.period t = k + 1 := by omega
    rw [hnext, if_pos hlt]
  · rw [← hsame, if_neg (not_lt.mpr hle)]

/-- Every instant follows a slot, and comes before the next one. -/
theorem exists_slot (t : Int) : ∃ k, r.slot k ≤ t ∧ t < r.slot (k + 1) := by
  by_cases h : t < r.slot (r.period t)
  · refine ⟨r.period t - 1, ?_, ?_⟩
    · have hbefore := r.slot_lt_start (r.period t - 1)
      rw [Int.sub_add_cancel] at hbefore
      exact hbefore.le.trans (period_spec t).1
    · rw [Int.sub_add_cancel]
      exact h
  · refine ⟨r.period t, not_lt.mp h, ?_⟩
    exact lt_of_lt_of_le (period_spec t).2 (r.start_le_slot _)

theorem lt_next (t : Int) : t < r.next t := by
  obtain ⟨k, hle, hlt⟩ := r.exists_slot t
  rw [next_eq_slot_succ hle hlt]
  exact hlt

theorem isSlot_next (t : Int) : r.IsSlot (r.next t) := by
  obtain ⟨k, hle, hlt⟩ := r.exists_slot t
  rw [next_eq_slot_succ hle hlt]
  exact isSlot_slot (k + 1)

theorem next_of_isSlot {t : Int} (h : r.IsSlot t) : r.next t = r.slot (r.period t + 1) := by
  have hlt : t < r.slot (r.period t + 1) := by
    calc t = r.slot (r.period t) := h.symm
      _ < r.slot (r.period t + 1) := slot_strictMono (Int.lt_succ _)
  exact next_eq_slot_succ h.le hlt

theorem period_next_of_isSlot {t : Int} (h : r.IsSlot t) :
    r.period (r.next t) = r.period t + 1 := by
  rw [next_of_isSlot h, period_slot]

/-- What comes after a slot and before the next one has that one as its next slot. -/
theorem next_eq_next {s t : Int} (hs : r.IsSlot s) (hle : s ≤ t) (hlt : t < r.next s) :
    r.next t = r.next s := by
  rw [next_of_isSlot hs] at hlt ⊢
  exact next_eq_slot_succ (hs.le.trans hle) hlt

/-- Between two slots there is one boundary of periods. -/
theorem period_cases {s t : Int} (hs : r.IsSlot s) (hle : s ≤ t) (hlt : t < r.next s) :
    r.period t = r.period s ∨ r.period t = r.period s + 1 := by
  have hlower := period_mono (r := r) hle
  have hupper := period_mono (r := r) hlt.le
  rw [period_next_of_isSlot hs] at hupper
  omega

theorem isSlot_iff_exists {t : Int} : r.IsSlot t ↔ ∃ k, r.slot k = t := by
  constructor
  · exact fun h => ⟨r.period t, h⟩
  · rintro ⟨k, rfl⟩
    exact isSlot_slot k

/-- **The next slot is the least one after an instant.** -/
theorem next_isLeast (t : Int) : IsLeast {u | r.IsSlot u ∧ t < u} (r.next t) := by
  refine ⟨⟨isSlot_next t, lt_next t⟩, ?_⟩
  rintro u ⟨hu, hlt⟩
  obtain ⟨k, hle, hnext⟩ := r.exists_slot t
  obtain ⟨j, rfl⟩ := isSlot_iff_exists.mp hu
  rw [next_eq_slot_succ hle hnext]
  have hk : k < j := slot_strictMono.lt_iff_lt.mp (lt_of_le_of_lt hle hlt)
  exact slot_strictMono.monotone hk

/-- From an instant on, the slots come one after the other. -/
theorem next_iterate {t k : Int} (hle : r.slot k ≤ t) (hlt : t < r.slot (k + 1)) (n : Nat) :
    r.next^[n + 1] t = r.slot (k + 1 + n) := by
  induction n with
  | zero =>
    rw [Function.iterate_one, next_eq_slot_succ hle hlt]
    simp
  | succ n ih =>
    rw [Function.iterate_succ_apply', ih, next_of_isSlot (isSlot_slot _), period_slot]
    push_cast
    ring_nf

/-- **Iterating `next` enumerates the slots** after an instant: every one comes once. -/
theorem existsUnique_iterate {t u : Int} (hu : r.IsSlot u) (hlt : t < u) : ∃! n : Nat, r.next^[n + 1] t = u := by
  obtain ⟨k, hle, hnext⟩ := r.exists_slot t
  obtain ⟨j, rfl⟩ := isSlot_iff_exists.mp hu
  have hk : k < j := slot_strictMono.lt_iff_lt.mp (lt_of_le_of_lt hle hlt)
  refine ⟨(j - (k + 1)).toNat, ?_, fun n hn => ?_⟩
  · show r.next^[(j - (k + 1)).toNat + 1] t = r.slot j
    rw [next_iterate hle hnext]
    congr 1
    omega
  · have heq : k + 1 + (n : Int) = j := by
      apply slot_strictMono.injective
      rw [← next_iterate hle hnext]
      exact hn
    omega

/-- They come in order. -/
theorem iterate_strictMono (t : Int) : StrictMono fun n : Nat => r.next^[n] t := by
  refine strictMono_nat_of_lt_succ fun n => ?_
  show r.next^[n] t < r.next^[n + 1] t
  rw [Function.iterate_succ_apply']
  exact lt_next _

/-! ## Windows -/

theorem window_adjacent_iff {t t' : Int} :
    (r.window t).2 = (r.window t').1 ↔ r.period t' = r.period t + 1 := by
  show r.start (r.period t) = r.start (r.period t' - 1) ↔ _
  rw [start_strictMono.injective.eq_iff]
  omega

/-- An entry of a schedule: a slot, and an instant that follows it before the next slot. -/
def Follows (r : Recurrence) (entry : Int × Int) : Prop :=
  r.IsSlot entry.1 ∧ entry.1 ≤ entry.2 ∧ entry.2 < r.next entry.1

/-- **Windows of consecutive slots.** They are adjacent exactly when all instants lie in the periods of
their slots, or all in the next ones. -/
theorem isChain_window_iff {entries : List (Int × Int)}
    (hconsecutive : entries.IsChain fun d e => e.1 = r.next d.1)
    (hfollows : ∀ entry ∈ entries, r.Follows entry) :
    entries.IsChain (fun d e => (r.window d.2).2 = (r.window e.2).1) ↔
      (∀ entry ∈ entries, r.period entry.2 = r.period entry.1) ∨
        (∀ entry ∈ entries, r.period entry.2 = r.period entry.1 + 1) := by
  induction entries with
  | nil => simp
  | cons d rest ih =>
    rw [List.forall_mem_cons] at hfollows
    obtain ⟨hd, hrest⟩ := hfollows
    have hcases := period_cases hd.1 hd.2.1 hd.2.2
    cases rest with
    | nil => simpa using hcases
    | cons e rest =>
      rw [List.isChain_cons_cons] at hconsecutive
      have hih := ih hconsecutive.2 hrest
      have hnext : r.period e.1 = r.period d.1 + 1 := by
        rw [hconsecutive.1, period_next_of_isSlot hd.1]
      rw [List.isChain_cons_cons, window_adjacent_iff, hih]
      simp only [List.forall_mem_cons]
      constructor
      · rintro ⟨hadjacent, ⟨he, hall⟩ | ⟨he, hall⟩⟩
        · exact .inl ⟨by omega, he, hall⟩
        · exact .inr ⟨by omega, he, hall⟩
      · rintro (⟨hd', he, hall⟩ | ⟨hd', he, hall⟩)
        · exact ⟨by omega, .inl ⟨he, hall⟩⟩
        · exact ⟨by omega, .inr ⟨he, hall⟩⟩

end Recurrence

end Dayfinch.Library
