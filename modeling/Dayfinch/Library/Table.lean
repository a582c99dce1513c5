/-
# Dayfinch.Library.Table -- relational tables as lists of rows

A table is a list of rows. `updateWhere p f` is `UPDATE .. SET f WHERE p`: it keeps the rows in
place and rewrites the ones that satisfy `p`. An update that keeps a key column keeps the key
sequence, so uniqueness and lookups by that key survive it; `UniqueKey` is the primary key of a
table. `latestBy` is `ORDER BY key DESC LIMIT 1`, where the database is free to choose among
equal keys: the choice is a tie-break rank, so quantifying over the rank covers every answer the
database may give. `orderBy` is `ORDER BY key`, with the same freedom.
-/
import Mathlib.Data.Int.ConditionallyCompleteOrder
import Mathlib.Data.List.Forall2
import Mathlib.Data.List.MinMax
import Mathlib.Data.List.Nodup
import Mathlib.Data.List.Sort
import Mathlib.Data.Prod.Lex

namespace Dayfinch.Library

universe u v

variable {ρ : Type u} {κ : Type v}

/-! ## Updates -/

/-- `UPDATE rows SET f WHERE p`. -/
def updateWhere (p : ρ → Bool) (f : ρ → ρ) (rows : List ρ) : List ρ :=
  rows.map fun r => if p r then f r else r

theorem mem_updateWhere {p : ρ → Bool} {f : ρ → ρ} {rows : List ρ} {r : ρ} :
    r ∈ updateWhere p f rows ↔ ∃ q ∈ rows, (if p q then f q else q) = r := List.mem_map

/-- A row of the updated table is an old row that was not selected, or the image of one that was. -/
theorem mem_updateWhere_cases {p : ρ → Bool} {f : ρ → ρ} {rows : List ρ} {r : ρ}
    (h : r ∈ updateWhere p f rows) :
    (r ∈ rows ∧ p r = false) ∨ ∃ q ∈ rows, p q = true ∧ r = f q := by
  obtain ⟨q, hq, rfl⟩ := mem_updateWhere.mp h
  by_cases hp : p q = true
  · exact .inr ⟨q, hq, hp, by simp [hp]⟩
  · have hp' : p q = false := by simpa using hp
    exact .inl ⟨by simpa [hp'] using hq, by simp [hp']⟩

/-- A row of the updated table has the key of an old row. -/
theorem mem_updateWhere_key (key : ρ → κ) {p : ρ → Bool} {f : ρ → ρ} {rows : List ρ} {r' : ρ}
    (h : r' ∈ updateWhere p f rows) (hkey : ∀ r, key (f r) = key r) : ∃ r ∈ rows, key r = key r' := by
  rcases mem_updateWhere_cases h with ⟨hold, _⟩ | ⟨r, hr, _, rfl⟩
  · exact ⟨r', hold, rfl⟩
  · exact ⟨r, hr, (hkey r).symm⟩

theorem mem_updateWhere_of_mem {p : ρ → Bool} {f : ρ → ρ} {rows : List ρ} {r : ρ}
    (h : r ∈ rows) : (if p r then f r else r) ∈ updateWhere p f rows :=
  mem_updateWhere.mpr ⟨r, h, rfl⟩

/-- A row that is not selected stays. -/
theorem mem_updateWhere_of_false {p : ρ → Bool} {f : ρ → ρ} {rows : List ρ} {r : ρ}
    (h : r ∈ rows) (hp : p r = false) : r ∈ updateWhere p f rows :=
  mem_updateWhere.mpr ⟨r, h, by simp [hp]⟩

/-- An update that keeps a column keeps that column's sequence of values. -/
theorem map_updateWhere {p : ρ → Bool} {f : ρ → ρ} {key : ρ → κ} (hf : ∀ r, key (f r) = key r)
    (rows : List ρ) : (updateWhere p f rows).map key = rows.map key := by
  simp only [updateWhere, List.map_map]
  refine List.map_congr_left fun r _ => ?_
  by_cases hp : p r = true <;> simp [hp, hf]

/-- An update that selects nothing changes nothing. -/
theorem updateWhere_eq_self {p : ρ → Bool} {f : ρ → ρ} {rows : List ρ}
    (h : ∀ r ∈ rows, p r = false) : updateWhere p f rows = rows := by
  rw [updateWhere, List.map_congr_left (g := id) fun r hr => by simp [h r hr], List.map_id]

/-- A projection of the rows that the update and its condition factor through. -/
theorem map_updateWhere_comm {p q : ρ → Bool} {f g c : ρ → ρ} (hp : ∀ r, q (c r) = p r)
    (hf : ∀ r, c (f r) = c (g (c r))) (hc : ∀ r, c (c r) = c r) (rows : List ρ) :
    (updateWhere p f rows).map c = (updateWhere q g (rows.map c)).map c := by
  simp only [updateWhere, List.map_map]
  refine List.map_congr_left fun r _ => ?_
  show c (if p r then f r else r) = c (if q (c r) then g (c r) else c r)
  rw [hp]
  by_cases h : p r = true
  · rw [if_pos h, if_pos h]
    exact hf r
  · rw [if_neg h, if_neg h]
    exact (hc r).symm

/-- An update of rows that a selection leaves out, before and after, is not seen by the selection. -/
theorem filter_updateWhere {q p : ρ → Bool} {f : ρ → ρ} {rows : List ρ}
    (h : ∀ r ∈ rows, p r = true → q r = false ∧ q (f r) = false) :
    (updateWhere p f rows).filter q = rows.filter q := by
  induction rows with
  | nil => rfl
  | cons r rows ih =>
    have hrest : (updateWhere p f rows).filter q = rows.filter q :=
      ih fun r' hr' => h r' (List.mem_cons_of_mem r hr')
    have hcons : updateWhere p f (r :: rows) = (if p r then f r else r) :: updateWhere p f rows := rfl
    rw [hcons, List.filter_cons, List.filter_cons, hrest]
    by_cases hp : p r = true
    · obtain ⟨hold, hnew⟩ := h r List.mem_cons_self hp
      simp [hp, hold, hnew]
    · rw [if_neg hp]

theorem countP_updateWhere (q p : ρ → Bool) (f : ρ → ρ) (rows : List ρ) :
    (updateWhere p f rows).countP q = rows.countP fun r => q (if p r then f r else r) :=
  List.countP_map

theorem any_updateWhere (q p : ρ → Bool) (f : ρ → ρ) (rows : List ρ) :
    (updateWhere p f rows).any q = rows.any fun r => q (if p r then f r else r) :=
  List.any_map

/-- Conditions that agree on every row hold of some row together. -/
theorem any_congr_of_mem {p q : ρ → Bool} {rows : List ρ} (h : ∀ r ∈ rows, p r = q r) :
    rows.any p = rows.any q := by
  induction rows with
  | nil => rfl
  | cons r rows ih =>
    rw [List.any_cons, List.any_cons, h r List.mem_cons_self,
      ih fun r' hr' => h r' (List.mem_cons_of_mem r hr')]

/-- A condition on the rows that are kept, where it decides what is kept. -/
theorem any_filter_of_imp {keep q : ρ → Bool} {b : Bool} {rows : List ρ}
    (h : ∀ r ∈ rows, q r = true → keep r = b) : (rows.filter keep).any q = (b && rows.any q) := by
  have hrow : ∀ r ∈ rows, (keep r && q r) = (b && q r) := by
    intro r hr
    by_cases hq : q r = true
    · rw [h r hr hq]
    · simp [hq]
  rw [List.any_filter, any_congr_of_mem hrow]
  cases b with
  | true => simp
  | false => simp

/-- Which keys carry a flag, after the flag is set for one key. -/
theorem any_flag_updateWhere [DecidableEq κ] (key : ρ → κ) (flag : ρ → Bool) {f : ρ → ρ} {b : Bool}
    (hkey : ∀ r, key (f r) = key r) (hflag : ∀ r, flag (f r) = b) (k k₀ : κ) (rows : List ρ) :
    (updateWhere (fun r => key r == k₀) f rows).any (fun r => key r == k && flag r) =
      if k = k₀ then b && rows.any (fun r => key r == k₀) else
        rows.any fun r => key r == k && flag r := by
  rw [any_updateWhere]
  by_cases hk : k = k₀
  · subst hk
    have hrow : ∀ r ∈ rows, (fun r => key r == k && flag r) (if key r == k then f r else r) =
        (b && key r == k) := by
      intro r _
      by_cases hr : (key r == k) = true
      · simp [hr, hkey, hflag]
      · simp [hr]
    rw [if_pos rfl, any_congr_of_mem hrow]
    cases b with
    | true => simp
    | false => simp
  · rw [if_neg hk]
    refine any_congr_of_mem fun r _ => ?_
    by_cases hr : (key r == k₀) = true
    · have hne : (key r == k) = false := by
        rw [beq_iff_eq] at hr
        rw [hr]
        exact beq_false_of_ne (Ne.symm hk)
      rw [if_pos hr]
      simp [hkey, hne]
    · rw [if_neg hr]

/-- A lookup by a column that an update keeps finds the updated row. -/
theorem find?_updateWhere {q p : ρ → Bool} {f : ρ → ρ} (hq : ∀ r, q (f r) = q r) (rows : List ρ) :
    (updateWhere p f rows).find? q = (rows.find? q).map fun r => if p r then f r else r := by
  rw [updateWhere, List.find?_map]
  have heq : q ∘ (fun r => if p r then f r else r) = q := by
    funext r
    by_cases hp : p r = true <;> simp [hp, hq]
  rw [heq]

/-! ## Row by row -/

/-- An update relates every row to its image, row by row. -/
theorem forall₂_updateWhere {R : ρ → ρ → Prop} {p : ρ → Bool} {f : ρ → ρ} {rows : List ρ}
    (hkeep : ∀ r ∈ rows, p r = false → R r r) (hset : ∀ r ∈ rows, p r = true → R r (f r)) :
    List.Forall₂ R rows (updateWhere p f rows) := by
  rw [updateWhere, List.forall₂_map_right_iff, List.forall₂_same]
  intro r hr
  by_cases hp : p r = true
  · rw [if_pos hp]
    exact hset r hr hp
  · rw [if_neg hp]
    exact hkeep r hr (by simpa using hp)

/-- Two updates of different rows. -/
theorem forall₂_updateWhere_updateWhere {R : ρ → ρ → Prop} {p q : ρ → Bool} {f g : ρ → ρ}
    {rows : List ρ} (hkeep : ∀ r ∈ rows, p r = false → q r = false → R r r)
    (hfirst : ∀ r ∈ rows, p r = true → q (f r) = false ∧ R r (f r))
    (hsecond : ∀ r ∈ rows, p r = false → q r = true → R r (g r)) :
    List.Forall₂ R rows (updateWhere q g (updateWhere p f rows)) := by
  rw [updateWhere, updateWhere, List.map_map, List.forall₂_map_right_iff, List.forall₂_same]
  intro r hr
  show R r (if q (if p r then f r else r) then g (if p r then f r else r) else if p r then f r else r)
  by_cases hp : p r = true
  · obtain ⟨hq, hR⟩ := hfirst r hr hp
    rw [if_pos hp, if_neg (by rw [hq]; exact Bool.false_ne_true)]
    exact hR
  · have hp' : p r = false := by simpa using hp
    rw [if_neg hp]
    by_cases hq : q r = true
    · rw [if_pos hq]
      exact hsecond r hr hp' hq
    · rw [if_neg hq]
      exact hkeep r hr hp' (by simpa using hq)

theorem forall₂_trans {R S T : ρ → ρ → Prop} (h : ∀ a b c, R a b → S b c → T a c) :
    ∀ {xs ys zs : List ρ}, List.Forall₂ R xs ys → List.Forall₂ S ys zs → List.Forall₂ T xs zs
  | _, _, _, .nil, .nil => .nil
  | _, _, _, .cons hr hrs, .cons hs hss => .cons (h _ _ _ hr hs) (forall₂_trans h hrs hss)

theorem exists_of_forall₂_right {σ : Type _} {R : ρ → σ → Prop} {xs : List ρ} {ys : List σ}
    (h : List.Forall₂ R xs ys) {y : σ} (hy : y ∈ ys) : ∃ x ∈ xs, R x y := by
  induction h with
  | nil => cases hy
  | cons hxy _ ih =>
    rcases List.mem_cons.mp hy with rfl | hy
    · exact ⟨_, List.mem_cons_self, hxy⟩
    · obtain ⟨x, hx, hR⟩ := ih hy
      exact ⟨x, List.mem_cons_of_mem _ hx, hR⟩

theorem exists_of_forall₂_left {σ : Type _} {R : ρ → σ → Prop} {xs : List ρ} {ys : List σ}
    (h : List.Forall₂ R xs ys) {x : ρ} (hx : x ∈ xs) : ∃ y ∈ ys, R x y := by
  induction h with
  | nil => cases hx
  | cons hxy _ ih =>
    rcases List.mem_cons.mp hx with rfl | hx
    · exact ⟨_, List.mem_cons_self, hxy⟩
    · obtain ⟨y, hy, hR⟩ := ih hx
      exact ⟨y, List.mem_cons_of_mem _ hy, hR⟩

/-! ## Outer joins -/

/-- `LEFT JOIN`: the rows that match, or one empty row where none does. -/
def leftJoin (rows : List ρ) : List (Option ρ) := if rows.isEmpty then [none] else rows.map some

theorem sum_leftJoin (f : Option ρ → Int) (rows : List ρ) :
    ((leftJoin rows).map f).sum =
      (rows.map fun r => f (some r)).sum + if rows.isEmpty then f none else 0 := by
  unfold leftJoin
  cases rows with
  | nil => simp
  | cons r rows => simp [Function.comp_def]

/-- `SUM(v) WHERE q`, as a sum over every row. -/
theorem sum_filter (q : ρ → Bool) (v : ρ → Int) (rows : List ρ) :
    ((rows.filter q).map v).sum = (rows.map fun r => if q r then v r else 0).sum := by
  induction rows with
  | nil => rfl
  | cons r rows ih =>
    by_cases hq : q r = true
    · rw [List.filter_cons_of_pos hq, List.map_cons, List.map_cons, List.sum_cons, List.sum_cons,
        ih, if_pos hq]
    · rw [List.filter_cons_of_neg hq, List.map_cons, List.sum_cons, ih, if_neg hq, Int.zero_add]

/-- Values that agree row by row have the same sum. -/
theorem sum_of_forall₂ {f f' : ρ → Int} {xs ys : List ρ}
    (h : List.Forall₂ (fun x y => f x = f' y) xs ys) : (xs.map f).sum = (ys.map f').sum := by
  induction h with
  | nil => rfl
  | cons hxy _ ih => rw [List.map_cons, List.map_cons, List.sum_cons, List.sum_cons, hxy, ih]

/-- Conditions that agree row by row hold of some row together. -/
theorem any_of_forall₂ {p p' : ρ → Bool} {xs ys : List ρ}
    (h : List.Forall₂ (fun x y => p x = p' y) xs ys) : xs.any p = ys.any p' := by
  induction h with
  | nil => rfl
  | cons hxy _ ih => rw [List.any_cons, List.any_cons, hxy, ih]

/-- An update that changes no row's share of a sum leaves the sum. -/
theorem sum_filter_updateWhere {q p : ρ → Bool} {v : ρ → Int} {f : ρ → ρ} {rows : List ρ}
    (h : ∀ r ∈ rows, p r = true → (if q (f r) then v (f r) else 0) = if q r then v r else 0) :
    (((updateWhere p f rows).filter q).map v).sum = ((rows.filter q).map v).sum := by
  rw [sum_filter, sum_filter]
  refine (sum_of_forall₂ (forall₂_updateWhere (fun _ _ _ => rfl) fun r hr hp => ?_)).symm
  exact (h r hr hp).symm

/-- Rows that belong to the whole when they belong to a part count once too often where they belong to
both. -/
theorem sum_filter_overlap {p q w : ρ → Bool} (v : ρ → Int) {rows : List ρ}
    (h : ∀ r ∈ rows, w r = (p r || q r)) :
    ((rows.filter p).map v).sum + ((rows.filter q).map v).sum =
      ((rows.filter w).map v).sum + ((rows.filter fun r => p r && q r).map v).sum := by
  induction rows with
  | nil => rfl
  | cons r rows ih =>
    have hw := h r List.mem_cons_self
    have hrest := ih fun r' hr' => h r' (List.mem_cons_of_mem r hr')
    rw [sum_filter, sum_filter, sum_filter, sum_filter] at hrest ⊢
    simp only [List.map_cons, List.sum_cons, hw]
    cases p r <;> cases q r <;>
      simp only [Bool.or_true, Bool.or_false, Bool.and_true, Bool.and_false, Bool.false_eq_true,
        if_true, if_false] <;> omega

/-- Rows that belong to the whole when they belong to one of two parts, which share none. -/
theorem sum_filter_parts {p q w : ρ → Bool} (v : ρ → Int) {rows : List ρ}
    (h : ∀ r ∈ rows, w r = (p r || q r)) (hapart : ∀ r ∈ rows, (p r && q r) = false) :
    ((rows.filter p).map v).sum + ((rows.filter q).map v).sum = ((rows.filter w).map v).sum := by
  have hnone : rows.filter (fun r => p r && q r) = [] :=
    List.filter_eq_nil_iff.mpr fun r hr => by simp [hapart r hr]
  rw [sum_filter_overlap v h, hnone]
  simp

theorem sum_map_nonneg {rows : List ρ} {v : ρ → Int} (h : ∀ r ∈ rows, 0 ≤ v r) :
    0 ≤ (rows.map v).sum := by
  induction rows with
  | nil => exact le_rfl
  | cons r rows ih =>
    have hr := h r List.mem_cons_self
    have hrest := ih fun r' hr' => h r' (List.mem_cons_of_mem r hr')
    rw [List.map_cons, List.sum_cons]
    omega

/-- Values that are not negative make nothing only where each is nothing. -/
theorem sum_map_eq_zero_iff {rows : List ρ} {v : ρ → Int} (h : ∀ r ∈ rows, 0 ≤ v r) :
    (rows.map v).sum = 0 ↔ ∀ r ∈ rows, v r = 0 := by
  induction rows with
  | nil => simp
  | cons r rows ih =>
    have hr := h r List.mem_cons_self
    have hrest := sum_map_nonneg fun r' hr' => h r' (List.mem_cons_of_mem r hr')
    rw [List.map_cons, List.sum_cons, List.forall_mem_cons,
      ← ih fun r' hr' => h r' (List.mem_cons_of_mem r hr')]
    omega

/-- A sum of zeros. -/
theorem sum_map_zero {rows : List ρ} {v : ρ → Int} (h : ∀ r ∈ rows, v r = 0) : (rows.map v).sum = 0 := by
  rw [List.map_congr_left h]
  simp

/-- A sum over the rows that a partial function leaves. -/
theorem sum_filterMap {σ : Type v} (f : ρ → Option σ) (v : σ → Int) (rows : List ρ) :
    ((rows.filterMap f).map v).sum = (rows.map fun r => (f r).elim 0 v).sum := by
  induction rows with
  | nil => rfl
  | cons r rows ih =>
    rw [List.filterMap_cons, List.map_cons, List.sum_cons]
    cases f r with
    | none =>
      rw [ih]
      exact (Int.zero_add _).symm
    | some x =>
      rw [List.map_cons, List.sum_cons, ih]
      rfl

/-! ## Lists that change in one place -/

section

variable {l : List ρ} {k : Nat} {f : ρ → ρ} {c : ρ}

/-- An element of the changed list is one from another place, or the changed one. -/
theorem mem_modify_cases (h : c ∈ l.modify k f) :
    (∃ i, i ≠ k ∧ l[i]? = some c) ∨ ∃ d, l[k]? = some d ∧ c = f d := by
  obtain ⟨i, hi⟩ := List.mem_iff_getElem?.mp h
  rw [List.getElem?_modify] at hi
  obtain ⟨d, hd, rfl⟩ := Option.map_eq_some_iff.mp hi
  by_cases hk : k = i
  · subst hk
    rw [if_pos rfl]
    exact .inr ⟨d, hd, rfl⟩
  · rw [if_neg hk]
    exact .inl ⟨i, fun heq => hk heq.symm, hd⟩

theorem getElem?_modify_of_ne {i : Nat} (h : l[i]? = some c) (hne : i ≠ k) : (l.modify k f)[i]? = some c := by
  rw [List.getElem?_modify, h]
  simp [hne.symm]

theorem getElem?_modify_self (h : l[k]? = some c) : (l.modify k f)[k]? = some (f c) := by
  rw [List.getElem?_modify, h]
  simp

end

/-! ## Keys -/

/-- No two rows carry the same key. -/
def UniqueKey (key : ρ → κ) (rows : List ρ) : Prop := (rows.map key).Nodup

theorem UniqueKey.eq {key : ρ → κ} {rows : List ρ} (h : UniqueKey key rows) {r q : ρ}
    (hr : r ∈ rows) (hq : q ∈ rows) (hk : key r = key q) : r = q :=
  List.inj_on_of_nodup_map h hr hq hk

/-- The sum over the rows with a key is the value of the row that has it. -/
theorem UniqueKey.sum_ite [DecidableEq κ] {key : ρ → κ} {rows : List ρ} (h : UniqueKey key rows) {r : ρ}
    (hr : r ∈ rows) (v : ρ → Int) : (rows.map fun q => if key q = key r then v q else 0).sum = v r := by
  induction rows with
  | nil => cases hr
  | cons q rows ih =>
    obtain ⟨hnot, hrest⟩ := List.nodup_cons.mp h
    rw [List.map_cons, List.sum_cons]
    rcases List.mem_cons.mp hr with rfl | hr
    · rw [if_pos rfl, sum_map_zero]
      · exact Int.add_zero _
      · intro q hq
        refine if_neg fun heq => hnot ?_
        rw [← heq]
        exact List.mem_map.mpr ⟨q, hq, rfl⟩
    · have hne : key q ≠ key r := by
        intro heq
        apply hnot
        rw [heq]
        exact List.mem_map.mpr ⟨r, hr, rfl⟩
      rw [if_neg hne, Int.zero_add]
      exact ih hrest hr

theorem UniqueKey.updateWhere {key : ρ → κ} {rows : List ρ} (h : UniqueKey key rows)
    {p : ρ → Bool} {f : ρ → ρ} (hf : ∀ r, key (f r) = key r) :
    UniqueKey key (updateWhere p f rows) := by
  unfold UniqueKey
  rw [map_updateWhere hf]
  exact h

/-- It is enough that the update keeps the key of the rows it selects. -/
theorem UniqueKey.updateWhere_of_key {key : ρ → κ} {rows : List ρ} (h : UniqueKey key rows)
    {p : ρ → Bool} {f : ρ → ρ} (hf : ∀ r ∈ rows, p r = true → key (f r) = key r) :
    UniqueKey key (Library.updateWhere p f rows) := by
  have hkeys : (Library.updateWhere p f rows).map key = rows.map key := by
    rw [Library.updateWhere, List.map_map]
    refine List.map_congr_left fun r hr => ?_
    show key (if p r then f r else r) = key r
    by_cases hp : p r = true
    · rw [if_pos hp]
      exact hf r hr hp
    · rw [if_neg hp]
  unfold UniqueKey
  rw [hkeys]
  exact h

/-- The update of one row, at most, to a key that no other row has. -/
theorem UniqueKey.updateWhere_fresh {key : ρ → κ} {rows : List ρ} (h : UniqueKey key rows) {p : ρ → Bool}
    {f : ρ → ρ} (hone : rows.Pairwise fun a b => p a = true → p b = false)
    (hfresh : ∀ a ∈ rows, p a = false → ∀ b ∈ rows, p b = true → key a ≠ key (f b)) :
    UniqueKey key (Library.updateWhere p f rows) := by
  unfold UniqueKey Library.updateWhere
  rw [List.map_map]
  refine List.pairwise_map.mpr ?_
  have hkeys : rows.Pairwise fun a b => key a ≠ key b := List.pairwise_map.mp h
  refine (hkeys.and hone).imp_of_mem fun {a b} ha hb hab => ?_
  obtain ⟨hne, hnot⟩ := hab
  show key (if p a then f a else a) ≠ key (if p b then f b else b)
  cases hpa : p a with
  | true =>
    rw [hnot hpa, if_pos rfl, if_neg Bool.false_ne_true]
    exact (hfresh b hb (hnot hpa) a ha hpa).symm
  | false =>
    rw [if_neg Bool.false_ne_true]
    cases hpb : p b with
    | true =>
      rw [if_pos rfl]
      exact hfresh a ha hpa b hb hpb
    | false =>
      rw [if_neg Bool.false_ne_true]
      exact hne

theorem UniqueKey.append_fresh {key : ρ → κ} {rows : List ρ} (h : UniqueKey key rows) {r : ρ}
    (hr : ∀ q ∈ rows, key q ≠ key r) : UniqueKey key (rows ++ [r]) := by
  unfold UniqueKey
  rw [List.map_append, List.nodup_append]
  refine ⟨h, by simp, ?_⟩
  intro a ha b hb
  obtain ⟨q, hq, rfl⟩ := List.mem_map.mp ha
  obtain rfl : b = key r := by simpa using hb
  exact hr q hq

theorem UniqueKey.sublist {key : ρ → κ} {rows rows' : List ρ} (h : UniqueKey key rows)
    (hsub : rows'.Sublist rows) : UniqueKey key rows' := List.Nodup.sublist (hsub.map key) h

/-- Looking a present row up by its unique key finds that row. -/
theorem UniqueKey.find?_eq [BEq κ] [LawfulBEq κ] {key : ρ → κ} {rows : List ρ} (h : UniqueKey key rows)
    {r : ρ} (hr : r ∈ rows) : rows.find? (fun q => key q == key r) = some r := by
  cases hfind : rows.find? (fun q => key q == key r) with
  | none => exact absurd (List.find?_eq_none.mp hfind r hr) (by simp)
  | some q =>
    have hq := List.mem_of_find?_eq_some hfind
    have hk : key q = key r := by simpa using List.find?_some hfind
    rw [h.eq hq hr hk]

/-- Without the row of a key, a selection has one row less exactly if it selects that row. -/
theorem UniqueKey.length_filter_ne [DecidableEq κ] {key : ρ → κ} {rows : List ρ} (h : UniqueKey key rows)
    {r : ρ} (hr : r ∈ rows) (p : ρ → Bool) :
    (rows.filter p).length =
      ((rows.filter fun q => decide (key q ≠ key r)).filter p).length + if p r then 1 else 0 := by
  induction rows with
  | nil => cases hr
  | cons q rows ih =>
    obtain ⟨hnot, hrest⟩ := List.nodup_cons.mp h
    rcases List.mem_cons.mp hr with rfl | hr
    · have hall : (rows.filter fun q => decide (key q ≠ key r)) = rows := by
        refine List.filter_eq_self.mpr fun q hq => decide_eq_true fun heq => hnot ?_
        rw [← heq]
        exact List.mem_map_of_mem hq
      have hhead : ((r :: rows).filter fun q => decide (key q ≠ key r)) = rows := by
        rw [List.filter_cons_of_neg (by simp), hall]
      rw [hhead, List.filter_cons]
      split <;> simp
    · have hne : key q ≠ key r := fun heq => hnot (heq ▸ List.mem_map_of_mem hr)
      have hhead : ((q :: rows).filter fun q => decide (key q ≠ key r)) =
          q :: rows.filter fun q => decide (key q ≠ key r) :=
        List.filter_cons_of_pos (by simpa using hne)
      rw [hhead, List.filter_cons, List.filter_cons]
      split
      · rw [List.length_cons, List.length_cons, ih hrest hr]
        omega
      · exact ih hrest hr

/-- `list(dict.fromkeys(..))` has no repetitions. -/
theorem nodup_eraseDups {κ : Type*} [DecidableEq κ] (xs : List κ) : xs.eraseDups.Nodup := by
  induction hn : xs.length using Nat.strong_induction_on generalizing xs with
  | _ n ih =>
    cases xs with
    | nil => exact List.nodup_nil
    | cons x xs =>
      rw [List.eraseDups_cons]
      refine List.nodup_cons.mpr ⟨fun hx => ?_, ?_⟩
      · simp at hx
      · refine ih _ ?_ _ rfl
        rw [← hn]
        exact Nat.lt_succ_of_le (List.length_filter_le _ _)

/-- The keys are unique, and drawn from a counter that has reached `next`. -/
structure CountedKeys (key : ρ → Nat) (rows : List ρ) (next : Nat) : Prop where
  unique : UniqueKey key rows
  below : ∀ r ∈ rows, key r < next

theorem CountedKeys.nil (key : ρ → Nat) (next : Nat) : CountedKeys key [] next :=
  ⟨List.nodup_nil, fun _ hr => (nomatch hr)⟩

theorem CountedKeys.mono {key : ρ → Nat} {rows : List ρ} {next next' : Nat}
    (h : CountedKeys key rows next) (hle : next ≤ next') : CountedKeys key rows next' :=
  ⟨h.unique, fun r hr => lt_of_lt_of_le (h.below r hr) hle⟩

theorem CountedKeys.updateWhere {key : ρ → Nat} {rows : List ρ} {next : Nat}
    (h : CountedKeys key rows next) {p : ρ → Bool} {f : ρ → ρ} (hf : ∀ r, key (f r) = key r) :
    CountedKeys key (Library.updateWhere p f rows) next := by
  refine ⟨h.unique.updateWhere hf, fun r hr => ?_⟩
  rcases mem_updateWhere_cases hr with ⟨hold, _⟩ | ⟨q, hq, _, rfl⟩
  · exact h.below r hold
  · rw [hf]
    exact h.below q hq

/-- A new row takes its key from the counter. -/
theorem CountedKeys.append {key : ρ → Nat} {rows : List ρ} {next : Nat}
    (h : CountedKeys key rows next) {r : ρ} (hr : key r = next) :
    CountedKeys key (rows ++ [r]) (next + 1) := by
  refine ⟨h.unique.append_fresh fun q hq => ?_, fun q hq => ?_⟩
  · rw [hr]
    exact (h.below q hq).ne
  · rcases List.mem_append.mp hq with hold | hnew
    · exact Nat.lt_succ_of_lt (h.below q hold)
    · rw [List.mem_singleton.mp hnew, hr]
      exact Nat.lt_succ_self next

theorem CountedKeys.sublist {key : ρ → Nat} {rows rows' : List ρ} {next : Nat}
    (h : CountedKeys key rows next) (hsub : rows'.Sublist rows) : CountedKeys key rows' next :=
  ⟨h.unique.sublist hsub, fun r hr => h.below r (hsub.subset hr)⟩

/-- Deleting the first rows by their keys leaves the others. -/
theorem UniqueKey.filter_take [DecidableEq κ] {key : ρ → κ} {rows : List ρ} (h : UniqueKey key rows)
    (n : Nat) : rows.filter (fun r => !((rows.take n).map key).contains (key r)) = rows.drop n := by
  have hsplit : (rows.take n ++ rows.drop n) = rows := List.take_append_drop n rows
  have hdisjoint : ∀ r ∈ rows.drop n, key r ∉ (rows.take n).map key := by
    unfold UniqueKey at h
    rw [← hsplit, List.map_append, List.nodup_append] at h
    intro r hr hmem
    exact h.2.2 _ hmem _ (List.mem_map_of_mem hr) rfl
  calc rows.filter (fun r => !((rows.take n).map key).contains (key r))
      = (rows.take n ++ rows.drop n).filter fun r => !((rows.take n).map key).contains (key r) := by
        rw [hsplit]
    _ = [] ++ rows.drop n := by
        rw [List.filter_append]
        congr 1
        · refine List.filter_eq_nil_iff.mpr fun r hr => ?_
          rw [List.contains_iff_mem.mpr (List.mem_map_of_mem hr)]
          exact Bool.false_ne_true
        · refine List.filter_eq_self.mpr fun r hr => ?_
          rw [Bool.not_eq_true', ← Bool.not_eq_true]
          exact mt List.contains_iff_mem.mp (hdisjoint r hr)
    _ = rows.drop n := List.nil_append _

/-- Replacing a row by one with its key. -/
theorem CountedKeys.set {key : ρ → Nat} {rows : List ρ} {next : Nat}
    (h : CountedKeys key rows next) {i : Nat} {r r' : ρ} (hr : rows[i]? = some r)
    (hkey : key r' = key r) : CountedKeys key (rows.set i r') next := by
  have hkeys : (rows.set i r').map key = rows.map key := by
    obtain ⟨hi, hri⟩ := List.getElem?_eq_some_iff.mp hr
    calc (rows.set i r').map key = (rows.set i r).map key := by rw [List.map_set, List.map_set, hkey]
      _ = rows.map key := by rw [← hri, List.set_getElem_self]
  refine ⟨?_, fun q hq => ?_⟩
  · unfold UniqueKey
    rw [hkeys]
    exact h.unique
  · obtain ⟨q', hq', hqkey⟩ := List.mem_map.mp (hkeys ▸ List.mem_map_of_mem hq)
    rw [← hqkey]
    exact h.below q' hq'

/-! ## `ORDER BY key DESC LIMIT 1` -/

/-- The order of the integers that computes, whatever else is imported. -/
local instance computableOrder : Preorder Int := Int.instLinearOrder.toPreorder

/-- A row of maximal key; among equal keys the rank `tie` chooses. -/
def latestBy (key : ρ → Int) (tie : ρ → Nat) (rows : List ρ) : Option ρ :=
  rows.argmax fun r => toLex (key r, tie r)

theorem latestBy_mem {key : ρ → Int} {tie : ρ → Nat} {rows : List ρ} {r : ρ}
    (h : latestBy key tie rows = some r) : r ∈ rows := List.argmax_mem h

theorem le_of_latestBy {key : ρ → Int} {tie : ρ → Nat} {rows : List ρ} {r q : ρ}
    (h : latestBy key tie rows = some r) (hq : q ∈ rows) : key q ≤ key r := by
  have hle : toLex (key q, tie q) ≤ toLex (key r, tie r) :=
    List.le_of_mem_argmax (f := fun r => toLex (key r, tie r)) hq h
  rcases Prod.Lex.toLex_le_toLex.mp hle with hlt | ⟨heq, _⟩
  · exact hlt.le
  · exact heq.le

theorem latestBy_eq_none {key : ρ → Int} {tie : ρ → Nat} {rows : List ρ} :
    latestBy key tie rows = none ↔ rows = [] := List.argmax_eq_none

/-- A projection of the rows that keeps the key and the rank keeps the choice. -/
theorem latestBy_map {key : ρ → Int} {tie : ρ → Nat} {f : ρ → ρ} (hkey : ∀ r, key (f r) = key r)
    (htie : ∀ r, tie (f r) = tie r) (rows : List ρ) :
    latestBy key tie (rows.map f) = (latestBy key tie rows).map f := by
  unfold latestBy
  induction rows using List.reverseRecOn with
  | nil => rfl
  | append_singleton rows r ih =>
    rw [List.map_append, List.map_singleton, List.argmax_concat, List.argmax_concat, ih]
    cases rows.argmax fun r => toLex (key r, tie r) with
    | none => rfl
    | some m =>
      show (if toLex (key (f m), tie (f m)) < toLex (key (f r), tie (f r)) then
          some (f r) else some (f m)) =
        (if toLex (key m, tie m) < toLex (key r, tie r) then some r else some m).map f
      rw [hkey, hkey, htie, htie]
      split
      · rfl
      · rfl

/-- `SELECT .. WHERE p ORDER BY key DESC LIMIT 1` answers `none` exactly when no row qualifies. -/
theorem latestBy_filter_eq_none {key : ρ → Int} {tie : ρ → Nat} {p : ρ → Bool} {rows : List ρ} :
    latestBy key tie (rows.filter p) = none ↔ ∀ r ∈ rows, p r = false := by
  rw [latestBy_eq_none, List.filter_eq_nil_iff]
  simp

/-! ## `ORDER BY key` -/

/-- The rows by ascending key; among equal keys the rank `tie` chooses. -/
def orderBy [LinearOrder κ] (key : ρ → κ) (tie : ρ → Nat) (rows : List ρ) : List ρ :=
  rows.insertionSort fun r q => toLex (key r, tie r) ≤ toLex (key q, tie q)

@[simp] theorem mem_orderBy [LinearOrder κ] {key : ρ → κ} {tie : ρ → Nat} {rows : List ρ} {r : ρ} :
    r ∈ orderBy key tie rows ↔ r ∈ rows := List.mem_insertionSort _

/-- Rows that come in ascending order stay as they are. -/
theorem orderBy_eq_self [LinearOrder κ] {key : ρ → κ} {rows : List ρ}
    (h : rows.Pairwise fun r q => key r < key q) (tie : ρ → Nat) : orderBy key tie rows = rows := by
  refine List.Pairwise.insertionSort_eq (h.imp fun hlt => ?_)
  exact (Prod.Lex.toLex_lt_toLex.mpr (.inl hlt)).le

/-! ## Rows whose keys differ -/

/-- The latest row, when the rows read in order are known. -/
theorem latestBy_map_of_sorted {γ : Type*} (at' : γ → Int) {f : ρ → γ} {key : ρ → Int}
    (hkey : ∀ r, at' (f r) = key r) {rows : List ρ} {sorted : List γ} (hperm : (rows.map f).Perm sorted)
    (hsorted : sorted.Pairwise fun x y => at' x < at' y) (tie : ρ → Nat) :
    (latestBy key tie rows).map f = sorted.getLast? := by
  induction sorted using List.reverseRecOn with
  | nil =>
    rw [List.map_eq_nil_iff.mp hperm.eq_nil]
    rfl
  | append_singleton sorted last _ =>
    obtain ⟨q, hq, hlast⟩ : ∃ q ∈ rows, f q = last :=
      List.mem_map.mp (hperm.mem_iff.mpr (List.mem_append_right _ List.mem_cons_self))
    rw [List.getLast?_concat]
    cases hlatest : latestBy key tie rows with
    | none =>
      rw [latestBy_eq_none.mp hlatest] at hq
      cases hq
    | some r =>
      have hmem : f r ∈ sorted ++ [last] :=
        hperm.mem_iff.mp (List.mem_map_of_mem (latestBy_mem hlatest))
      rcases List.mem_append.mp hmem with hearly | hend
      · -- a row before the last one would not be the latest
        have hlt : at' (f r) < at' last :=
          (List.pairwise_append.mp hsorted).2.2 _ hearly _ List.mem_cons_self
        have hle : key q ≤ key r := le_of_latestBy hlatest hq
        rw [← hlast, hkey, hkey] at hlt
        exact absurd hle (not_le.mpr hlt)
      · exact congrArg some (List.mem_singleton.mp hend)

/-- The rows in order, when they are known. -/
theorem orderBy_map_of_sorted {γ : Type*} [LinearOrder κ] (at' : γ → κ) {f : ρ → γ} {key : ρ → κ}
    (hkey : ∀ r, at' (f r) = key r) {rows : List ρ} {sorted : List γ} (hperm : (rows.map f).Perm sorted)
    (hsorted : sorted.Pairwise fun x y => at' x < at' y) (tie : ρ → Nat) :
    (orderBy key tie rows).map f = sorted := by
  have hrows : (orderBy key tie rows).Pairwise fun r q => key r ≤ key q := by
    refine (List.pairwise_insertionSort _ rows).imp fun hle => ?_
    rcases Prod.Lex.toLex_le_toLex.mp hle with hlt | ⟨heq, _⟩
    · exact hlt.le
    · exact heq.le
  have hpairs : ((orderBy key tie rows).map f).Pairwise fun x y => at' x ≤ at' y := by
    rw [List.pairwise_map]
    exact hrows.imp fun hle => by rwa [hkey, hkey]
  have hsorted' : sorted.Pairwise fun x y => at' x ≤ at' y := hsorted.imp le_of_lt
  have horder : ((orderBy key tie rows).map f).Perm sorted :=
    ((List.perm_insertionSort _ rows).map f).trans hperm
  refine List.Perm.eq_of_pairwise ?_ hpairs hsorted' horder
  intro x y hx hy hxy hyx
  have hinj : (sorted.map at').Nodup := (List.pairwise_map.mpr hsorted).imp ne_of_lt
  exact List.inj_on_of_nodup_map hinj (horder.mem_iff.mp hx) hy (le_antisymm hxy hyx)

end Dayfinch.Library
