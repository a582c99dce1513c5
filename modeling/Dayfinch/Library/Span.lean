/-
# Dayfinch.Library.Span -- half-open spans of a linear order, possibly unbounded above

A span is `[start, stop)` where `stop` may be `⊤`: a stretch of time that has begun and not ended.
Two spans overlap when some point lies in both; for spans of positive length this is the same as
their interiors meeting, and an empty span (`stop ≤ start`) overlaps nothing. `overlaps_iff` turns
the definition into a comparison of ends, which is what makes it decidable.
-/
import Mathlib.Data.Int.ConditionallyCompleteOrder
import Mathlib.Order.MinMax
import Mathlib.Order.WithBot

namespace Dayfinch.Library

universe u

variable {α : Type u} [LinearOrder α]

/-- The span `[start, stop)`. -/
structure Span (α : Type u) where
  start : α
  stop : WithTop α

namespace Span

/-- `t` lies in the span. -/
def Mem (t : α) (a : Span α) : Prop := a.start ≤ t ∧ (t : WithTop α) < a.stop

/-- Some point lies in both spans. -/
def Overlaps (a b : Span α) : Prop := ∃ t, Mem t a ∧ Mem t b

theorem overlaps_comm {a b : Span α} : Overlaps a b ↔ Overlaps b a :=
  ⟨fun ⟨t, ha, hb⟩ => ⟨t, hb, ha⟩, fun ⟨t, hb, ha⟩ => ⟨t, ha, hb⟩⟩

/-- Two spans overlap exactly when both starts are before both stops. -/
theorem overlaps_iff {a b : Span α} :
    Overlaps a b ↔ (max a.start b.start : WithTop α) < min a.stop b.stop := by
  constructor
  · rintro ⟨t, ⟨ha, hat⟩, hb, hbt⟩
    exact lt_min (lt_of_le_of_lt (by exact_mod_cast max_le ha hb) hat)
      (lt_of_le_of_lt (by exact_mod_cast max_le ha hb) hbt)
  · intro h
    obtain ⟨ha, hb⟩ := lt_min_iff.mp h
    refine ⟨max a.start b.start, ⟨le_max_left _ _, ?_⟩, le_max_right _ _, ?_⟩
    · exact_mod_cast ha
    · exact_mod_cast hb

instance decidableOverlaps (a b : Span α) : Decidable (Overlaps a b) :=
  decidable_of_iff _ overlaps_iff.symm

/-- A span that ends where the other begins does not overlap it. -/
theorem not_overlaps_of_stop_le {a b : Span α} (h : a.stop ≤ b.start) : ¬ Overlaps a b := by
  rintro ⟨t, ⟨_, hat⟩, hb, _⟩
  exact absurd (lt_of_lt_of_le hat h) (not_lt.mpr (by exact_mod_cast hb))

/-- An empty span overlaps nothing. -/
theorem not_overlaps_of_empty {a b : Span α} (h : a.stop ≤ a.start) : ¬ Overlaps a b := by
  rintro ⟨t, ⟨ha, hat⟩, _⟩
  exact absurd (lt_of_lt_of_le hat h) (not_lt.mpr (by exact_mod_cast ha))

/-- Ending a span earlier makes it overlap no more than before. -/
theorem Overlaps.of_shorter {a a' b : Span α} (hs : a'.start = a.start) (he : a'.stop ≤ a.stop)
    (h : Overlaps a' b) : Overlaps a b := by
  obtain ⟨t, ⟨ha, hat⟩, hb⟩ := h
  exact ⟨t, ⟨hs ▸ ha, lt_of_lt_of_le hat he⟩, hb⟩

end Span

end Dayfinch.Library
