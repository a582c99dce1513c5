/-
# Dayfinch.Library.Outcome -- what a computation that may fail ensures when it succeeds

`Ensures x Q` is the partial-correctness triple of a computation in `Except`: every value that `x`
can return satisfies `Q`, and a failure satisfies everything. The rules follow the shapes a
computation is written in, so a property of a sequence of statements is proved statement by
statement, with the fact each statement leaves for the next one named.
-/
import Mathlib.Init

namespace Dayfinch.Library

universe u v w

variable {ε : Type u} {α : Type v} {β : Type v}

/-- If `x` returns a value, the value satisfies `Q`. -/
def Ensures (x : Except ε α) (Q : α → Prop) : Prop := ∀ a, x = .ok a → Q a

/-! ## Rules -/

@[simp] theorem ensures_ok {Q : α → Prop} {a : α} : Ensures (.ok a : Except ε α) Q ↔ Q a := by
  constructor
  · intro h
    exact h a rfl
  · intro h b hb
    cases hb
    exact h

@[simp] theorem ensures_pure {Q : α → Prop} {a : α} : Ensures (pure a : Except ε α) Q ↔ Q a :=
  ensures_ok

@[simp] theorem ensures_error {Q : α → Prop} {e : ε} : Ensures (.error e : Except ε α) Q := by
  intro a h
  cases h

/-- Weakening what is ensured. -/
theorem Ensures.mono {x : Except ε α} {P Q : α → Prop} (h : Ensures x P) (hPQ : ∀ a, P a → Q a) :
    Ensures x Q := fun a ha => hPQ a (h a ha)

/-- A computation in sequence succeeds exactly when both parts do. -/
theorem bind_eq_ok {x : Except ε α} {f : α → Except ε β} {b : β} :
    (x >>= f) = .ok b ↔ ∃ a, x = .ok a ∧ f a = .ok b := by
  cases x with
  | error e => simp [bind, Except.bind]
  | ok a => simp [bind, Except.bind]

/-- A computation in sequence fails when one of its parts does. -/
theorem bind_eq_error {x : Except ε α} {f : α → Except ε β} {e : ε} :
    (x >>= f) = .error e ↔ x = .error e ∨ ∃ a, x = .ok a ∧ f a = .error e := by
  cases x with
  | error e' => simp [bind, Except.bind]
  | ok a => simp [bind, Except.bind]

/-- What an outcome gives as an option is what it succeeds with. -/
theorem toOption_eq_some {x : Except ε α} {a : α} : x.toOption = some a ↔ x = .ok a := by
  cases x with
  | error e => simp [Except.toOption]
  | ok b => simp [Except.toOption]

/-- **The rule of sequence.** -/
theorem Ensures.bind {x : Except ε α} {f : α → Except ε β} {P : α → Prop} {Q : β → Prop}
    (hx : Ensures x P) (hf : ∀ a, P a → Ensures (f a) Q) : Ensures (x >>= f) Q := by
  intro b hb
  obtain ⟨a, ha, hfa⟩ := bind_eq_ok.mp hb
  exact hf a (hx a ha) b hfa

/-- The rule of the conditional. -/
theorem ensures_ite {c : Prop} [Decidable c] {x y : Except ε α} {Q : α → Prop}
    (hx : c → Ensures x Q) (hy : ¬ c → Ensures y Q) : Ensures (if c then x else y) Q := by
  by_cases h : c
  · rw [if_pos h]
    exact hx h
  · rw [if_neg h]
    exact hy h

/-- Mapping the value of a computation. -/
theorem ensures_map {x : Except ε α} {f : α → β} {Q : β → Prop} :
    Ensures (x.map f) Q ↔ Ensures x fun a => Q (f a) := by
  cases x with
  | error e => simp [Except.map]
  | ok a => simp [Except.map]

/-! ## Two computations -/

/-- Both computations fail, or both return values that `R` relates. -/
inductive Agree (R : α → β → Prop) : Except ε α → Except ε β → Prop
  | ok {a : α} {b : β} (h : R a b) : Agree R (.ok a) (.ok b)
  | error (e e' : ε) : Agree R (.error e) (.error e')

theorem Agree.isOk_eq {R : α → β → Prop} {x : Except ε α} {y : Except ε β} (h : Agree R x y) :
    x.isOk = y.isOk := by
  cases h with
  | ok => rfl
  | error => rfl

/-- A computation agrees with itself. -/
theorem Agree.refl {R : α → α → Prop} (hR : ∀ a, R a a) (x : Except ε α) : Agree R x x := by
  cases x with
  | ok a => exact .ok (hR a)
  | error e => exact .error e e

/-- The rule of sequence, for two computations. -/
theorem Agree.bind {γ δ : Type v} {R : α → γ → Prop} {S : β → δ → Prop} {x : Except ε α}
    {y : Except ε γ} {f : α → Except ε β} {g : γ → Except ε δ} (hx : Agree R x y)
    (hf : ∀ a b, R a b → Agree S (f a) (g b)) : Agree S (x >>= f) (y >>= g) := by
  cases hx with
  | ok h => exact hf _ _ h
  | error e e' => exact .error e e'

end Dayfinch.Library
