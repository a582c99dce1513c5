/-
# Dayfinch.Agent.Versions -- the versions the update client compares

`_SEMVER` is read as a grammar, `SemverGrammar`, and as the function `_semver` that finds the groups of a match;
the two agree (`semver_eq_ok_iff`). The pattern takes more than Semantic Versioning 2.0: leading zeros in the
numeric identifiers of a prerelease, and the decimal digits of any script after the first digit of a number.
`int` reads these as it reads the others, and reads numbers of any length here.

`version_is_newer` compares tuples. `HigherPrecedence` is the precedence of Semantic Versioning 2.0 in its own
words, and `versionIsNewer_precedence` says that the two are one strict order, whose ties are the versions that
differ in nothing but their builds and the spelling of their numbers.
-/
import Dayfinch.Library.Outcome
import Dayfinch.Library.Text
import Dayfinch.Library.Tuples
import Mathlib.Data.Char
import Mathlib.Data.List.Chain
import Mathlib.Data.Prod.Lex
import Mathlib.Data.Sum.Order
import Mathlib.Order.WithBot

namespace Dayfinch

open Library (tupleGt tupleGt_iff_lt Below below_iff_lt)
open Library.Text (decimalDigit)

/-! ## Reading a version -/

/-- `UpdateError`. -/
structure UpdateError where
  message : String
  deriving DecidableEq, Repr

/-- `(0, int(item))` or `(1, item)`. -/
inductive PrereleaseIdentifier
  | numeric (value : Nat)
  | text (item : List Char)
  deriving DecidableEq, Repr

/-- What `_semver` returns. -/
structure Semver where
  major : Nat
  minor : Nat
  patch : Nat
  prerelease : Option (List PrereleaseIdentifier)
  deriving DecidableEq, Repr

/-- `0|[1-9]\d*`. -/
def isNumber : List Char → Bool
  | [] => false
  | c :: rest => (c == '0' && rest.isEmpty) || ('1' ≤ c && c ≤ '9' && rest.all fun d => (decimalDigit d).isSome)

/-- `[0-9A-Za-z-]`. -/
def identifierChar (c : Char) : Bool := c.isAlphanum || c == '-'

/-- `[0-9A-Za-z-]+`. -/
def isIdentifier (item : List Char) : Bool := !item.isEmpty && item.all identifierChar

/-- `int`, of decimal digits. -/
def int (digits : List Char) : Nat := digits.foldl (fun n d => 10 * n + (decimalDigit d).getD 0) 0

/-- An item of the prerelease; the items are ASCII. -/
def prereleaseIdentifier (item : List Char) : PrereleaseIdentifier :=
  if item.all Char.isDigit then .numeric (int item) else .text item

/-- What stands before the first `separator`, and after it, if there is one. -/
def cut (separator : Char) : List Char → List Char × Option (List Char)
  | [] => ([], none)
  | c :: rest => if c = separator then ([], some rest) else ((cut separator rest).1.cons c, (cut separator rest).2)

/-- `_semver`. The build begins at the first plus and the prerelease at the first hyphen before it, since the
characters that the pattern has there can be no others. -/
def semver (value : String) : Except UpdateError Semver :=
  let build := (cut '+' value.toList).2.map (List.splitOn '.')
  let prerelease := (cut '-' (cut '+' value.toList).1).2.map (List.splitOn '.')
  match (cut '-' (cut '+' value.toList).1).1.splitOn '.' with
  | [major, minor, patch] =>
      if isNumber major ∧ isNumber minor ∧ isNumber patch ∧ (∀ items ∈ prerelease, items.all isIdentifier) ∧
          ∀ items ∈ build, items.all isIdentifier then
        .ok ⟨int major, int minor, int patch, prerelease.map (List.map prereleaseIdentifier)⟩
      else .error ⟨s!"Invalid semantic version: {value}"⟩
  | _ => .error ⟨s!"Invalid semantic version: {value}"⟩

/-- `(?:-([0-9A-Za-z-]+(?:\.[0-9A-Za-z-]+)*))?`, and the like with a plus: the text of the group. -/
def optionalItems (mark : Char) : Option (List (List Char)) → List Char
  | none => []
  | some items => mark :: ['.'].intercalate items

/-- `_SEMVER.fullmatch`, and what the groups of the match are read as. -/
structure SemverMatch (value : String) (v : Semver) where
  major : List Char
  minor : List Char
  patch : List Char
  prerelease : Option (List (List Char))
  build : Option (List (List Char))
  numbers : isNumber major ∧ isNumber minor ∧ isNumber patch
  prereleaseItems : ∀ items ∈ prerelease, items ≠ [] ∧ ∀ item ∈ items, isIdentifier item
  buildItems : ∀ items ∈ build, items ≠ [] ∧ ∀ item ∈ items, isIdentifier item
  value_eq : value.toList = major ++ '.' :: (minor ++ '.' :: (patch ++
    (optionalItems '-' prerelease ++ optionalItems '+' build)))
  v_eq : v = ⟨int major, int minor, int patch, prerelease.map (List.map prereleaseIdentifier)⟩

/-- The version is in the grammar, and read as `v`. -/
def SemverGrammar (value : String) (v : Semver) : Prop := Nonempty (SemverMatch value v)

/-! ## The function finds the match -/

theorem cut_of_not_mem {separator : Char} {xs : List Char} (h : separator ∉ xs) : cut separator xs = (xs, none) := by
  induction xs with
  | nil => rfl
  | cons x xs ih =>
    rw [List.mem_cons, not_or] at h
    obtain ⟨hx, hxs⟩ := h
    rw [cut, if_neg (Ne.symm hx), ih hxs]

theorem cut_append {separator : Char} {xs : List Char} (h : separator ∉ xs) (ys : List Char) :
    cut separator (xs ++ separator :: ys) = (xs, some ys) := by
  induction xs with
  | nil => simp [cut]
  | cons x xs ih =>
    rw [List.mem_cons, not_or] at h
    obtain ⟨hx, hxs⟩ := h
    rw [List.cons_append, cut, if_neg (Ne.symm hx), ih hxs]

/-- The text, put together again. -/
theorem cut_eq {separator : Char} (xs : List Char) :
    xs = (cut separator xs).1 ++ ((cut separator xs).2.map (List.cons separator)).getD [] := by
  induction xs with
  | nil => rfl
  | cons x xs ih =>
    unfold cut
    by_cases hx : x = separator
    · simp [hx]
    · simp only [if_neg hx, List.cons_append]
      rw [← ih]

theorem isNumber_chars {digits : List Char} (h : isNumber digits) {c : Char} (hc : c ∈ digits) :
    (decimalDigit c).isSome := by
  cases digits with
  | nil => cases hc
  | cons d rest =>
    simp only [isNumber, Bool.or_eq_true, Bool.and_eq_true, beq_iff_eq, List.isEmpty_iff, decide_eq_true_eq,
      List.all_eq_true] at h
    rcases h with ⟨rfl, rfl⟩ | ⟨⟨hlow, hhigh⟩, hrest⟩
    · obtain rfl := List.mem_singleton.mp hc
      decide
    · rcases List.mem_cons.mp hc with rfl | hc
      · rw [Library.Text.decimalDigit_ascii ⟨Char.le_trans (show '0' ≤ '1' by decide) hlow, hhigh⟩]
        rfl
      · exact hrest c hc

theorem not_mem_of_isNumber {digits : List Char} (h : isNumber digits) :
    '.' ∉ digits ∧ '-' ∉ digits ∧ '+' ∉ digits := by
  refine ⟨?_, ?_, ?_⟩ <;>
  · intro hc
    have hdigit := isNumber_chars h hc
    revert hdigit
    decide

theorem not_mem_of_isIdentifier {item : List Char} (h : isIdentifier item) : '.' ∉ item ∧ '+' ∉ item := by
  rw [isIdentifier, Bool.and_eq_true, List.all_eq_true] at h
  refine ⟨?_, ?_⟩ <;>
  · intro hc
    have hchar := h.2 _ hc
    revert hchar
    decide

theorem optionalItems_eq {mark : Char} (tail : Option (List Char)) :
    optionalItems mark (tail.map (List.splitOn '.')) = (tail.map (List.cons mark)).getD [] := by
  cases tail with
  | none => rfl
  | some tail => simp [optionalItems, List.intercalate_splitOn]

theorem map_splitOn_eq {items : Option (List (List Char))}
    (h : ∀ list ∈ items, list ≠ [] ∧ ∀ item ∈ list, isIdentifier item) :
    (items.map (List.intercalate ['.'])).map (List.splitOn '.') = items := by
  cases items with
  | none => rfl
  | some list =>
    obtain ⟨hne, hall⟩ := h list rfl
    simp only [Option.map_some]
    rw [List.splitOn_intercalate '.' (fun item hitem => (not_mem_of_isIdentifier (hall item hitem)).1) hne]

theorem splitOn_items {text : Option (List Char)}
    (h : ∀ items ∈ text.map (List.splitOn '.'), (items.all isIdentifier) = true) :
    ∀ items ∈ text.map (List.splitOn '.'), items ≠ [] ∧ ∀ item ∈ items, isIdentifier item := by
  intro items hitems
  obtain ⟨chars, -, rfl⟩ := Option.map_eq_some_iff.mp hitems
  exact ⟨List.splitOn_ne_nil '.' chars, List.all_eq_true.mp (h _ hitems)⟩

/-- No plus in the items. -/
theorem not_mem_intercalate {items : List (List Char)} (h : ∀ item ∈ items, isIdentifier item) :
    '+' ∉ ['.'].intercalate items := by
  induction items with
  | nil => simp [List.intercalate]
  | cons item items ih =>
    have hitem := (not_mem_of_isIdentifier (h item List.mem_cons_self)).2
    have hrest := ih fun other hother => h other (List.mem_cons_of_mem item hother)
    cases items with
    | nil => simpa [List.intercalate] using hitem
    | cons other items =>
      rw [List.intercalate_cons_cons]
      simp only [List.mem_append, List.mem_singleton, not_or]
      exact ⟨⟨hitem, by decide⟩, hrest⟩

/-- What `cut` finds where the text begins with a part that lacks the mark. -/
theorem cut_optionalItems {mark : Char} {xs : List Char} (h : mark ∉ xs) (items : Option (List (List Char))) :
    cut mark (xs ++ optionalItems mark items) = (xs, items.map (List.intercalate ['.'])) := by
  cases items with
  | none => simpa [optionalItems] using cut_of_not_mem h
  | some items => exact cut_append h _

/-- **The function finds the match.** -/
theorem semver_eq_ok_iff {value : String} {v : Semver} : semver value = .ok v ↔ SemverGrammar value v := by
  constructor
  · intro h
    unfold semver at h
    split at h
    next major minor patch hcore =>
      dsimp only at h
      split at h
      next hcheck =>
        obtain ⟨hmajor, hminor, hpatch, hprerelease, hbuild⟩ := hcheck
        refine ⟨⟨major, minor, patch, _, _, ⟨hmajor, hminor, hpatch⟩, splitOn_items hprerelease,
          splitOn_items hbuild, ?_, (Except.ok.inj h).symm⟩⟩
        have hcoreText : (cut '-' (cut '+' value.toList).1).1 = major ++ '.' :: (minor ++ '.' :: patch) := by
          have : ['.'].intercalate ((cut '-' (cut '+' value.toList).1).1.splitOn '.') =
              (cut '-' (cut '+' value.toList).1).1 := List.intercalate_splitOn '.'
          rw [hcore] at this
          rw [← this]
          simp [List.intercalate_cons_cons]
        rw [optionalItems_eq, optionalItems_eq]
        have hparts : major ++ '.' :: (minor ++ '.' :: (patch ++
            (((cut '-' (cut '+' value.toList).1).2.map (List.cons '-')).getD [] ++
              ((cut '+' value.toList).2.map (List.cons '+')).getD []))) =
            (major ++ '.' :: (minor ++ '.' :: patch)) ++
              ((cut '-' (cut '+' value.toList).1).2.map (List.cons '-')).getD [] ++
              ((cut '+' value.toList).2.map (List.cons '+')).getD [] := by simp
        rw [hparts, ← hcoreText, ← cut_eq, ← cut_eq]
      next => cases h
    next => cases h
  · rintro ⟨⟨major, minor, patch, prerelease, build, ⟨hmajor, hminor, hpatch⟩, hprerelease, hbuild, hvalue, hv⟩⟩
    have hplus : '+' ∉ major ++ '.' :: (minor ++ '.' :: (patch ++ optionalItems '-' prerelease)) := by
      have hitems : '+' ∉ optionalItems '-' prerelease := by
        cases prerelease with
        | none => simp [optionalItems]
        | some items =>
          have := not_mem_intercalate (hprerelease items rfl).2
          simpa [optionalItems] using this
      simp [(not_mem_of_isNumber hmajor).2.2, (not_mem_of_isNumber hminor).2.2, (not_mem_of_isNumber hpatch).2.2,
        hitems]
    have hhyphen : '-' ∉ major ++ '.' :: (minor ++ '.' :: patch) := by
      simp [(not_mem_of_isNumber hmajor).2.1, (not_mem_of_isNumber hminor).2.1, (not_mem_of_isNumber hpatch).2.1]
    have hcutPlus : cut '+' value.toList =
        (major ++ '.' :: (minor ++ '.' :: (patch ++ optionalItems '-' prerelease)),
          build.map (List.intercalate ['.'])) := by
      rw [hvalue, ← cut_optionalItems hplus build]
      simp
    have hcutHyphen : cut '-' (cut '+' value.toList).1 =
        (major ++ '.' :: (minor ++ '.' :: patch), prerelease.map (List.intercalate ['.'])) := by
      rw [hcutPlus, ← cut_optionalItems hhyphen prerelease]
      simp
    have hsplit : (major ++ '.' :: (minor ++ '.' :: patch)).splitOn '.' = [major, minor, patch] := by
      rw [List.splitOn_append_cons_self_of_not_mem (not_mem_of_isNumber hmajor).1,
        List.splitOn_append_cons_self_of_not_mem (not_mem_of_isNumber hminor).1,
        List.splitOn_eq_singleton (not_mem_of_isNumber hpatch).1]
    unfold semver
    rw [hcutHyphen, hcutPlus]
    simp only [hsplit, map_splitOn_eq hprerelease, map_splitOn_eq hbuild]
    rw [if_pos ⟨hmajor, hminor, hpatch, fun items hitems => List.all_eq_true.mpr (hprerelease items hitems).2,
      fun items hitems => List.all_eq_true.mpr (hbuild items hitems).2⟩, hv]

/-! ## Comparing versions -/

/-- `a > b` of two items. -/
def PrereleaseIdentifier.gt : PrereleaseIdentifier → PrereleaseIdentifier → Bool
  | .numeric m, .numeric n => n < m
  | .text s, .text t => t < s
  | .text _, .numeric _ => true
  | .numeric _, .text _ => false

/-- `candidate_version[:3]`. -/
def Semver.core (v : Semver) : List Nat := [v.major, v.minor, v.patch]

/-- `version_is_newer`, of versions that have been read. -/
def Semver.newer (candidate current : Semver) : Bool :=
  if candidate.core ≠ current.core then tupleGt (fun m n => decide (n < m)) candidate.core current.core
  else
    match candidate.prerelease, current.prerelease with
    | none, currentPre => currentPre.isSome
    | some _, none => false
    | some candidatePre, some currentPre => tupleGt PrereleaseIdentifier.gt candidatePre currentPre

/-- `version_is_newer`. -/
def versionIsNewer (candidate current : String) : Except UpdateError Bool := do
  let candidateVersion ← semver candidate
  let currentVersion ← semver current
  return candidateVersion.newer currentVersion

/-! ## The precedence of Semantic Versioning 2.0 -/

/-- Numbers are compared as numbers and are below all other identifiers, which are compared as texts. -/
inductive IdentifierBelow : PrereleaseIdentifier → PrereleaseIdentifier → Prop
  | numeric {m n : Nat} : m < n → IdentifierBelow (.numeric m) (.numeric n)
  | mixed {m : Nat} {item : List Char} : IdentifierBelow (.numeric m) (.text item)
  | text {s t : List Char} : s < t → IdentifierBelow (.text s) (.text t)

/-- A prerelease is below the release, and two prereleases are compared at their first difference. -/
def PrereleaseBelow : Option (List PrereleaseIdentifier) → Option (List PrereleaseIdentifier) → Prop
  | some a, some b => Below IdentifierBelow a b
  | some _, none => True
  | none, _ => False

/-- Major, minor and patch are compared as numbers, in this order, and then the prereleases. -/
def HigherPrecedence (a b : Semver) : Prop :=
  b.major < a.major ∨ b.major = a.major ∧ (b.minor < a.minor ∨ b.minor = a.minor ∧
    (b.patch < a.patch ∨ b.patch = a.patch ∧ PrereleaseBelow b.prerelease a.prerelease))

/-- Nothing but the builds, which are not read, differs. -/
def EqualPrecedence (a b : Semver) : Prop :=
  a.major = b.major ∧ a.minor = b.minor ∧ a.patch = b.patch ∧ a.prerelease = b.prerelease

/-! ## One linear order -/

namespace PrereleaseIdentifier

/-- Numbers before texts. -/
def toSum : PrereleaseIdentifier → ℕ ⊕ₗ List Char
  | .numeric n => toLex (.inl n)
  | .text s => toLex (.inr s)

theorem toSum_injective : Function.Injective toSum := by
  rintro (m | s) (n | t) h
  · exact congrArg numeric (Sum.inl.inj (toLex_inj.mp h))
  · exact nomatch toLex_inj.mp h
  · exact nomatch toLex_inj.mp h
  · exact congrArg text (Sum.inr.inj (toLex_inj.mp h))

instance : LinearOrder PrereleaseIdentifier := LinearOrder.lift' toSum toSum_injective

theorem identifierBelow_iff_lt (a b : PrereleaseIdentifier) : IdentifierBelow a b ↔ a < b := by
  have hlt : a < b ↔ toSum a < toSum b := Iff.rfl
  rw [hlt]
  rcases a with m | s <;> rcases b with n | t
  · simp only [toSum, Sum.Lex.inl_lt_inl_iff]
    exact ⟨fun h => by cases h; assumption, .numeric⟩
  · simp only [toSum, Sum.Lex.inl_lt_inr, iff_true]
    exact .mixed
  · simp only [toSum, Sum.Lex.not_inr_lt_inl, iff_false]
    exact nofun
  · simp only [toSum, Sum.Lex.inr_lt_inr_iff]
    exact ⟨fun h => by cases h; assumption, .text⟩

theorem gt_iff_lt (a b : PrereleaseIdentifier) : gt a b = true ↔ b < a := by
  rw [← identifierBelow_iff_lt]
  rcases a with m | s <;> rcases b with n | t <;> simp only [gt, decide_eq_true_eq]
  · exact ⟨.numeric, fun h => by cases h; assumption⟩
  · exact ⟨nofun, nofun⟩
  · exact ⟨fun _ => .mixed, fun _ => trivial⟩
  · exact ⟨.text, fun h => by cases h; assumption⟩

end PrereleaseIdentifier

namespace Semver

/-- The release is above its prereleases. -/
def prereleasePlace : Option (List PrereleaseIdentifier) → WithTop (List PrereleaseIdentifier)
  | none => ⊤
  | some items => (items : WithTop (List PrereleaseIdentifier))

/-- Where a version stands. -/
def place (v : Semver) : (ℕ ×ₗ ℕ ×ₗ ℕ) ×ₗ WithTop (List PrereleaseIdentifier) :=
  toLex (toLex (v.major, toLex (v.minor, v.patch)), prereleasePlace v.prerelease)

theorem prereleasePlace_injective : Function.Injective prereleasePlace := by
  rintro (_ | a) (_ | b) h
  · rfl
  · exact absurd h (WithTop.coe_ne_top).symm
  · exact absurd h WithTop.coe_ne_top
  · exact congrArg some (WithTop.coe_injective h)

theorem prereleaseBelow_iff (a b : Option (List PrereleaseIdentifier)) :
    PrereleaseBelow a b ↔ prereleasePlace a < prereleasePlace b := by
  cases a with
  | none => simp [PrereleaseBelow, prereleasePlace]
  | some a =>
    cases b with
    | none => simp [PrereleaseBelow, prereleasePlace]
    | some b =>
      simp only [PrereleaseBelow, prereleasePlace, WithTop.coe_lt_coe]
      exact below_iff_lt PrereleaseIdentifier.identifierBelow_iff_lt

theorem equalPrecedence_iff (a b : Semver) : EqualPrecedence a b ↔ a.place = b.place := by
  simp only [EqualPrecedence, place, toLex_inj, Prod.mk.injEq, prereleasePlace_injective.eq_iff, and_assoc]

/-- The precedence is the order of the places. -/
theorem higherPrecedence_iff (a b : Semver) : HigherPrecedence a b ↔ b.place < a.place := by
  simp only [HigherPrecedence, place, Prod.Lex.toLex_lt_toLex, toLex_inj, Prod.mk.injEq, prereleaseBelow_iff]
  tauto

/-- The prereleases of versions with the same numbers, as the function compares them. -/
theorem newer_of_core_eq {a b : Semver} (h : a.core = b.core) :
    a.newer b = true ↔ PrereleaseBelow b.prerelease a.prerelease := by
  unfold newer
  rw [if_neg (not_not.mpr h)]
  cases a.prerelease with
  | none => cases b.prerelease <;> simp [PrereleaseBelow]
  | some c =>
    cases b.prerelease with
    | none => simp [PrereleaseBelow]
    | some d =>
      have hlt := tupleGt_iff_lt PrereleaseIdentifier.gt_iff_lt c d
      have hbelow : Below IdentifierBelow d c ↔ d < c :=
        below_iff_lt PrereleaseIdentifier.identifierBelow_iff_lt
      exact hlt.trans hbelow.symm

/-- **The function computes the precedence.** -/
theorem newer_iff (a b : Semver) : a.newer b = true ↔ HigherPrecedence a b := by
  by_cases hcore : a.core = b.core
  · rw [newer_of_core_eq hcore]
    simp only [core, List.cons.injEq, and_true] at hcore
    obtain ⟨hmajor, hminor, hpatch⟩ := hcore
    simp [HigherPrecedence, hmajor, hminor, hpatch]
  · unfold newer
    rw [if_pos hcore, tupleGt_iff_lt fun m n => decide_eq_true_iff]
    simp only [core, List.cons.injEq, and_true] at hcore
    simp only [core, List.cons_lt_cons_iff, List.not_lt_nil, and_false, or_false, HigherPrecedence]
    constructor
    · tauto
    · rintro (h | ⟨h, h' | ⟨h', h'' | ⟨h'', -⟩⟩⟩)
      · exact .inl h
      · exact .inr ⟨h, .inl h'⟩
      · exact .inr ⟨h, .inr ⟨h', h''⟩⟩
      · exact absurd ⟨h.symm, h'.symm, h''.symm⟩ hcore

end Semver

/-! ## Chains of updates -/

/-- Each version of the chain is newer than the one before it. -/
def UpdateChain (versions : List String) : Prop :=
  versions.IsChain fun installed update => versionIsNewer update installed = .ok true

theorem versionIsNewer_eq {a b : String} {va vb : Semver} (ha : SemverGrammar a va) (hb : SemverGrammar b vb) :
    versionIsNewer a b = .ok (va.newer vb) := by
  unfold versionIsNewer
  rw [semver_eq_ok_iff.mpr ha, semver_eq_ok_iff.mpr hb]
  rfl

/-- Versions that are compared are in the grammar. -/
theorem versionIsNewer_eq_true {a b : String} (h : versionIsNewer a b = .ok true) :
    ∃ va vb, SemverGrammar a va ∧ SemverGrammar b vb ∧ HigherPrecedence va vb := by
  unfold versionIsNewer at h
  obtain ⟨va, ha, h⟩ := Library.bind_eq_ok.mp h
  obtain ⟨vb, hb, h⟩ := Library.bind_eq_ok.mp h
  exact ⟨va, vb, semver_eq_ok_iff.mp ha, semver_eq_ok_iff.mp hb, (Semver.newer_iff va vb).mp (Except.ok.inj h)⟩

/-- What a version is read as is determined. -/
theorem SemverGrammar.unique {a : String} {v w : Semver} (hv : SemverGrammar a v) (hw : SemverGrammar a w) :
    v = w :=
  Except.ok.inj ((semver_eq_ok_iff.mpr hv).symm.trans (semver_eq_ok_iff.mpr hw))

theorem versionIsNewer_trans {a b c : String} (hab : versionIsNewer a b = .ok true)
    (hbc : versionIsNewer b c = .ok true) : versionIsNewer a c = .ok true := by
  obtain ⟨va, vb, ha, hb, hab⟩ := versionIsNewer_eq_true hab
  obtain ⟨vb', vc, hb', hc, hbc⟩ := versionIsNewer_eq_true hbc
  obtain rfl := hb.unique hb'
  rw [versionIsNewer_eq ha hc, (Semver.newer_iff va vc).mpr]
  rw [Semver.higherPrecedence_iff] at *
  exact hbc.trans hab

/-- A later version of a chain is newer than an earlier one. -/
theorem UpdateChain.pairwise {versions : List String} (h : UpdateChain versions) :
    versions.Pairwise fun installed update => versionIsNewer update installed = .ok true := by
  have : IsTrans String fun installed update => versionIsNewer update installed = .ok true :=
    ⟨fun _ _ _ hba hcb => versionIsNewer_trans hcb hba⟩
  exact List.isChain_iff_pairwise.mp h

/-- **Versions are compared by precedence.** For versions in the grammar, the function says that one is newer
just where it has the higher precedence; that is a strict order, of two versions one is newer or they have equal
precedence, and a chain of updates never goes back. -/
theorem versionIsNewer_precedence {a b : String} {va vb : Semver} (ha : SemverGrammar a va)
    (hb : SemverGrammar b vb) :
    (versionIsNewer a b = .ok true ↔ HigherPrecedence va vb) ∧
      versionIsNewer a a = .ok false ∧
      (∀ c, versionIsNewer a b = .ok true → versionIsNewer b c = .ok true → versionIsNewer a c = .ok true) ∧
      ((versionIsNewer a b = .ok true ∧ versionIsNewer b a = .ok false ∧ ¬ EqualPrecedence va vb) ∨
        (versionIsNewer a b = .ok false ∧ versionIsNewer b a = .ok true ∧ ¬ EqualPrecedence va vb) ∨
        (versionIsNewer a b = .ok false ∧ versionIsNewer b a = .ok false ∧ EqualPrecedence va vb)) ∧
      ∀ versions, UpdateChain versions →
        versions.Pairwise fun installed update => versionIsNewer update installed = .ok true := by
  have hnewer : ∀ v w : Semver, v.newer w = decide (w.place < v.place) := by
    intro v w
    rw [Bool.eq_iff_iff, Semver.newer_iff, Semver.higherPrecedence_iff, decide_eq_true_eq]
  refine ⟨?_, ?_, fun _ => versionIsNewer_trans, ?_, fun versions => UpdateChain.pairwise⟩
  · rw [versionIsNewer_eq ha hb, Except.ok.injEq]
    exact Semver.newer_iff va vb
  · rw [versionIsNewer_eq ha ha, hnewer]
    simp
  · rw [versionIsNewer_eq ha hb, versionIsNewer_eq hb ha, hnewer, hnewer, Semver.equalPrecedence_iff]
    rcases lt_trichotomy va.place vb.place with hlt | heq | hgt
    · right; left
      simp [hlt, hlt.not_gt, hlt.ne]
    · right; right
      simp [heq]
    · left
      simp [hgt, hgt.not_gt, hgt.ne']

/-- A release is above its prereleases. -/
theorem versionIsNewer_release : HigherPrecedence ⟨1, 10, 0, none⟩ ⟨1, 10, 0, some [.numeric 10]⟩ :=
  have release : SemverGrammar "1.10.0+linux" ⟨1, 10, 0, none⟩ := semver_eq_ok_iff.mp (by decide +kernel)
  have later : SemverGrammar "1.10.0-10" ⟨1, 10, 0, some [.numeric 10]⟩ := semver_eq_ok_iff.mp (by decide +kernel)
  (versionIsNewer_precedence release later).1.mp (by decide +kernel)

end Dayfinch
