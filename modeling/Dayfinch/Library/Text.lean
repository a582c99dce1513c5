/-
# Dayfinch.Library.Text -- the string operations the services apply to what they receive

Strings are cut, stripped, put into one case and matched against simple patterns before they are
stored. `truncate n` is the slice `[:n]`; the case functions change ASCII letters only, which is all
that a status, a code or a currency consists of.
-/
import Mathlib.Data.List.Infix
import Mathlib.Data.String.Basic
import Mathlib.Data.String.Lemmas

namespace Dayfinch.Library.Text

/-- Membership of a list of words is decided through this. -/
instance lawfulBEqWord : LawfulBEq (List Char) := inferInstance

/-- `s[:n]`. -/
def truncate (n : Nat) (s : String) : String := String.ofList (s.toList.take n)

/-- `s.lower()`, for ASCII. -/
def lower (s : String) : String := String.ofList (s.toList.map Char.toLower)

/-- `s.upper()`, for ASCII. -/
def upper (s : String) : String := String.ofList (s.toList.map Char.toUpper)

/-- `c.isspace()`. -/
def isSpace (c : Char) : Bool :=
  (9 ≤ c.toNat && c.toNat ≤ 13) || (28 ≤ c.toNat && c.toNat ≤ 32) || c.toNat == 0x85 ||
    c.toNat == 0xa0 || c.toNat == 0x1680 || (0x2000 ≤ c.toNat && c.toNat ≤ 0x200a) ||
    c.toNat == 0x2028 || c.toNat == 0x2029 || c.toNat == 0x202f || c.toNat == 0x205f ||
    c.toNat == 0x3000

/-- `s.replace("\x00", "")`. -/
def withoutNul (s : String) : String := String.ofList (s.toList.filter fun c => c.toNat != 0)

/-- `s.strip()`. -/
def strip (s : String) : String :=
  String.ofList ((s.toList.dropWhile isSpace).reverse.dropWhile isSpace).reverse

/-- `" ".join(s.split())`. -/
def collapse (s : String) : String :=
  String.ofList
    ([' '].intercalate ((s.toList.splitOnP isSpace).filter fun word => !word.isEmpty))

/-- The zeros of the scripts that have decimal digits (category Nd of Unicode 15.1). The digits of a
script follow its zero. -/
def digitZeros : List Nat :=
  [0x30, 0x660, 0x6f0, 0x7c0, 0x966, 0x9e6, 0xa66, 0xae6, 0xb66, 0xbe6, 0xc66, 0xce6, 0xd66, 0xde6,
    0xe50, 0xed0, 0xf20, 0x1040, 0x1090, 0x17e0, 0x1810, 0x1946, 0x19d0, 0x1a80, 0x1a90, 0x1b50, 0x1bb0,
    0x1c40, 0x1c50, 0xa620, 0xa8d0, 0xa900, 0xa9d0, 0xa9f0, 0xaa50, 0xabf0, 0xff10, 0x104a0, 0x10d30,
    0x11066, 0x110f0, 0x11136, 0x111d0, 0x112f0, 0x11450, 0x114d0, 0x11650, 0x116c0, 0x11730, 0x118e0,
    0x11950, 0x11c50, 0x11d50, 0x11da0, 0x11f50, 0x16a60, 0x16ac0, 0x16b50, 0x1d7ce, 0x1d7d8, 0x1d7e2,
    0x1d7ec, 0x1d7f6, 0x1e140, 0x1e2f0, 0x1e4f0, 0x1e950, 0x1fbf0]

/-- What `\d` of a pattern matches, as `int` reads it. -/
def decimalDigit (c : Char) : Option Nat :=
  (digitZeros.find? fun z => z ≤ c.toNat && c.toNat < z + 10).map (c.toNat - ·)

theorem decimalDigit_lt {c : Char} {n : Nat} (h : decimalDigit c = some n) : n < 10 := by
  unfold decimalDigit at h
  obtain ⟨z, hz, rfl⟩ := Option.map_eq_some_iff.mp h
  have hrange := List.find?_some hz
  rw [Bool.and_eq_true, decide_eq_true_eq, decide_eq_true_eq] at hrange
  omega

theorem decimalDigit_ascii {c : Char} (h : '0' ≤ c ∧ c ≤ '9') : decimalDigit c = some (c.toNat - 0x30) := by
  have hlow : 0x30 ≤ c.toNat := h.1
  have hhigh : c.toNat ≤ 0x39 := h.2
  have hfirst : (decide (0x30 ≤ c.toNat) && decide (c.toNat < 0x30 + 10)) = true := by
    rw [Bool.and_eq_true, decide_eq_true_eq, decide_eq_true_eq]
    omega
  obtain ⟨others, hothers⟩ : ∃ others, digitZeros = 0x30 :: others := ⟨_, rfl⟩
  unfold decimalDigit
  rw [hothers, List.find?_cons, hfirst]
  rfl

/-- `[^..]` of a pattern replaced by `_`. -/
def replaceOthers (allowed : Char → Bool) (s : String) : String :=
  String.ofList (s.toList.map fun c => if allowed c then c else '_')

/-- `^[first][others]{0,n}$`. -/
def fullmatch (first others : Char → Bool) (n : Nat) (s : String) : Bool :=
  match s.toList with
  | [] => false
  | c :: cs => first c && cs.all others && cs.length ≤ n

@[simp] theorem truncate_empty (n : Nat) : truncate n "" = "" := by
  simp [truncate]

@[simp] theorem truncate_truncate (n : Nat) (s : String) : truncate n (truncate n s) = truncate n s := by
  simp [truncate, List.take_take]

theorem truncate_eq_empty {n : Nat} (hn : n ≠ 0) {s : String} : truncate n s = "" ↔ s = "" := by
  constructor
  · intro h
    have hlist : s.toList.take n = [] := by
      rw [← String.toList_ofList (l := s.toList.take n)]
      show (truncate n s).toList = []
      rw [h]
      rfl
    rcases List.take_eq_nil_iff.mp hlist with hzero | hnil
    · exact absurd hzero hn
    · exact String.toList_eq_nil_iff.mp hnil
  · rintro rfl
    exact truncate_empty n

/-- What matches a pattern is not empty. -/
theorem ne_empty_of_fullmatch {first others : Char → Bool} {n : Nat} {s : String}
    (h : fullmatch first others n s = true) : s ≠ "" := by
  rintro rfl
  exact Bool.false_ne_true h

/-- What matches a pattern is no longer than the pattern allows. -/
theorem truncate_of_fullmatch {first others : Char → Bool} {n m : Nat} {s : String}
    (h : fullmatch first others n s = true) (hm : n < m) : truncate m s = s := by
  have hlength : s.toList.length ≤ m := by
    unfold fullmatch at h
    cases hs : s.toList with
    | nil => simp
    | cons c cs =>
      rw [hs] at h
      simp only [Bool.and_eq_true, decide_eq_true_eq] at h
      show cs.length + 1 ≤ m
      omega
  unfold truncate
  rw [List.take_of_length_le hlength]
  exact String.ofList_toList

/-! ## Fields between separators, and numbers in decimal -/

/-- What stands before the first separator is determined, and so is the rest. -/
theorem split_at_separator {α : Type} {c : α} {xs ys xs' ys' : List α} (hxs : c ∉ xs) (hxs' : c ∉ xs')
    (h : xs ++ c :: ys = xs' ++ c :: ys') : xs = xs' ∧ ys = ys' := by
  induction xs generalizing xs' with
  | nil =>
    cases xs' with
    | nil => exact ⟨rfl, (List.cons.inj h).2⟩
    | cons x' xs' =>
      obtain ⟨rfl, _⟩ := List.cons.inj h
      exact absurd List.mem_cons_self hxs'
  | cons x xs ih =>
    cases xs' with
    | nil =>
      obtain ⟨rfl, _⟩ := List.cons.inj h
      exact absurd List.mem_cons_self hxs
    | cons x' xs' =>
      obtain ⟨rfl, hrest⟩ := List.cons.inj h
      obtain ⟨rfl, rfl⟩ := ih (fun hmem => hxs (List.mem_cons_of_mem x hmem))
        (fun hmem => hxs' (List.mem_cons_of_mem x hmem)) hrest
      exact ⟨rfl, rfl⟩

theorem isDigit_of_mem_toString {n : Nat} {c : Char} (h : c ∈ (toString n).toList) : c.isDigit = true := by
  rw [Nat.toString_eq_ofList_toDigits, String.toList_ofList] at h
  exact Nat.isDigit_of_mem_toDigits (by decide) (by decide) h

/-- `f"{n:04d}"` has digits only. -/
theorem isDigit_of_mem_leftpad {width n : Nat} {c : Char}
    (h : c ∈ (String.leftpad width '0' (toString n)).toList) : c.isDigit = true := by
  rw [String.leftpad, String.toList_ofList, List.leftpad] at h
  rcases List.mem_append.mp h with hzero | hdigit
  · rw [(List.mem_replicate.mp hzero).2]
    decide
  · exact isDigit_of_mem_toString hdigit

/-- `f"{n:04d}"` says which number it is. -/
theorem leftpad_toString_inj {width m n : Nat}
    (h : String.leftpad width '0' (toString m) = String.leftpad width '0' (toString n)) : m = n := by
  have hvalue : ∀ k : Nat, Nat.ofDigitChars 10 (String.leftpad width '0' (toString k)).toList 0 = k := by
    intro k
    rw [String.leftpad, String.toList_ofList, List.leftpad, Nat.ofDigitChars_append,
      Nat.ofDigitChars_replicate_zero, Nat.mul_zero, Nat.toString_eq_ofList_toDigits, String.toList_ofList,
      Nat.ofDigitChars_ten_toDigits]
  rw [← hvalue m, h, hvalue n]

end Dayfinch.Library.Text
