/-
# Dayfinch.Library.Idna -- host names in ASCII

The `idna` codec writes a host name in ASCII, label by label. A name that is ASCII already is checked
and returned as it is; any other name is split at the four characters that IDNA reads as dots, each
label is prepared (folded and normalised) and what is still not ASCII is written in Punycode behind
`xn--`. A label must have 1 to 63 characters. The tables of Unicode, and with them the preparation
of a label and its Punycode, come from outside: `Unicode.Documented`
states what the callers rely on.
-/
import Mathlib.Data.List.Basic
import Mathlib.Data.List.DropRight

namespace Dayfinch.Library.Idna

/-- A `str`. -/
abbrev Chars := List Char

/-- `s.isascii()`. -/
def isAscii (s : Chars) : Bool := s.all fun c => c.toNat < 128

/-- What the string methods and codecs take from the Unicode database. -/
structure Unicode where
  /-- `s.lower()`. -/
  lower : Chars → Chars
  /-- `unicodedata.normalize("NFKC", s)`. -/
  nfkc : Chars → Chars
  /-- `nameprep(label)`, or nothing where it raises `UnicodeError`. -/
  nameprep : Chars → Option Chars
  /-- `label.encode("punycode")`. -/
  punycode : Chars → Chars

/-- No letter `A` to `Z`. -/
def Folded (s : Chars) : Prop := ∀ c ∈ s, c.isUpper = false

/-- What the documentation of these functions says and the readers of host names rely on: `lower`
acts on ASCII text letter by letter, it leaves no `A` to `Z` and neither does the preparation of a
label, and Punycode is ASCII that spells the ASCII letters as they are and its digits in lower
case. -/
structure Unicode.Documented (unicode : Unicode) : Prop where
  lower_ascii : ∀ s, isAscii s = true → unicode.lower s = s.map Char.toLower
  lower_folded : ∀ s, Folded (unicode.lower s)
  nameprep_folded : ∀ s label, unicode.nameprep s = some label → Folded label
  punycode_ascii : ∀ s, isAscii (unicode.punycode s) = true
  punycode_folded : ∀ s, Folded s → Folded (unicode.punycode s)

/-! ## The codec -/

/-- `dots`: the characters that separate labels. -/
def isDot (c : Char) : Bool :=
  c == '.' || c.toNat == 0x3002 || c.toNat == 0xff0e || c.toNat == 0xff61

/-- A label of 1 to 63 characters. -/
def sized (label : Chars) : Option Chars :=
  if 0 < label.length ∧ label.length < 64 then some label else none

/-- `sace_prefix`. -/
def acePrefix : Chars := ['x', 'n', '-', '-']

/-- `ToASCII`, with nothing where it raises `UnicodeError`. -/
def toASCII (unicode : Unicode) (label : Chars) : Option Chars :=
  if isAscii label then sized label
  else
    (unicode.nameprep label).bind fun label =>
      if isAscii label then sized label
      else if acePrefix.isPrefixOf label then none
      else sized (acePrefix ++ unicode.punycode label)

/-- `".".join(labels)`. -/
def join (labels : List Chars) : Chars := ['.'].intercalate labels

/-- `Codec.encode` of the `idna` codec, with nothing where it raises `UnicodeError`. -/
def encode (unicode : Unicode) (name : Chars) : Option Chars :=
  if name = [] then some []
  else if isAscii name then
    let labels := name.splitOn '.'
    if (∀ label ∈ labels.dropLast, 0 < label.length ∧ label.length < 64) ∧
        (∀ label ∈ labels.getLast?, label.length < 64)
    then some name
    else none
  else
    let labels := name.splitOnP isDot
    if labels.getLast? = some [] then
      (labels.dropLast.mapM (toASCII unicode)).map fun ascii => join ascii ++ ['.']
    else (labels.mapM (toASCII unicode)).map join

/-- The labels of a name, as the codec splits it. -/
def labelsOf (name : Chars) : List Chars :=
  if isAscii name then name.splitOn '.' else name.splitOnP isDot

/-! ## Joined labels -/

theorem join_cons {label : Chars} {labels : List Chars} (h : labels ≠ []) :
    join (label :: labels) = label ++ '.' :: join labels := by
  unfold join
  rw [List.intercalate_cons_of_ne_nil h, List.append_assoc]
  rfl

@[simp] theorem join_singleton (label : Chars) : join [label] = label :=
  List.intercalate_singleton

theorem join_splitOn (name : Chars) : join (name.splitOn '.') = name :=
  List.intercalate_splitOn '.'

/-- Joined labels are split where the labels themselves have dots, too. -/
theorem splitOn_join {labels : List Chars} (h : labels ≠ []) :
    (join labels).splitOn '.' = labels.flatMap (List.splitOn '.') := by
  induction labels with
  | nil => exact absurd rfl h
  | cons label labels ih =>
    by_cases hrest : labels = []
    · subst hrest
      simp
    · rw [join_cons hrest, List.splitOn_append_cons_self, ih hrest, List.flatMap_cons]

theorem mem_join {labels : List Chars} {c : Char} (hc : c ≠ '.') :
    c ∈ join labels ↔ ∃ label ∈ labels, c ∈ label := by
  induction labels with
  | nil => simp [join]
  | cons label labels ih =>
    by_cases hrest : labels = []
    · subst hrest
      simp
    · rw [join_cons hrest, List.mem_append, List.mem_cons, ih]
      simp [hc]

theorem sublist_join {labels : List Chars} {label : Chars} (h : label ∈ labels) :
    label.Sublist (join labels) := by
  induction labels with
  | nil => cases h
  | cons first labels ih =>
    by_cases hrest : labels = []
    · subst hrest
      rw [List.mem_singleton.mp h, join_singleton]
    · rw [join_cons hrest]
      rcases List.mem_cons.mp h with rfl | htail
      · exact List.sublist_append_left _ _
      · exact ((ih htail).cons _).trans (List.sublist_append_right _ _)

/-- What stands between two dots is a part of the text. -/
theorem sublist_of_mem_splitOn {part name : Chars} (h : part ∈ name.splitOn '.') :
    part.Sublist name := by
  have hpart := sublist_join h
  rwa [join_splitOn] at hpart

/-! ## ASCII text -/

theorem isAscii_iff {s : Chars} : isAscii s = true ↔ ∀ c ∈ s, c.toNat < 128 := by
  simp [isAscii]

theorem isAscii_of_subset {s t : Chars} (hsub : s ⊆ t) (ht : isAscii t = true) : isAscii s = true :=
  isAscii_iff.mpr fun c hc => isAscii_iff.mp ht c (hsub hc)

/-! ## The labels and their ASCII forms -/

theorem mapM_cons_eq_some {α β : Type} {f : α → Option β} {x : α} {xs : List α} {ys : List β} :
    (x :: xs).mapM f = some ys ↔ ∃ y rest, f x = some y ∧ xs.mapM f = some rest ∧ ys = y :: rest := by
  rw [List.mapM_cons]
  simp only [Option.bind_eq_bind, Option.bind_eq_some_iff, Option.pure_def, Option.some.injEq]
  constructor
  · rintro ⟨y, hy, rest, hrest, rfl⟩
    exact ⟨y, rest, hy, hrest, rfl⟩
  · rintro ⟨y, rest, hy, hrest, rfl⟩
    exact ⟨y, hy, rest, hrest, rfl⟩

theorem mem_of_mapM {α β : Type} {f : α → Option β} {xs : List α} {ys : List β}
    (h : xs.mapM f = some ys) : ∀ y ∈ ys, ∃ x ∈ xs, f x = some y := by
  induction xs generalizing ys with
  | nil =>
    intro y hy
    rw [List.mapM_nil] at h
    cases Option.some.inj h
    cases hy
  | cons x xs ih =>
    obtain ⟨first, rest, hfirst, hrest, rfl⟩ := mapM_cons_eq_some.mp h
    intro y hy
    rcases List.mem_cons.mp hy with rfl | htail
    · exact ⟨x, List.mem_cons_self, hfirst⟩
    · obtain ⟨x', hx', hy'⟩ := ih hrest y htail
      exact ⟨x', List.mem_cons_of_mem _ hx', hy'⟩

theorem defined_of_mapM {α β : Type} {f : α → Option β} {xs : List α} {ys : List β}
    (h : xs.mapM f = some ys) : ∀ x ∈ xs, ∃ y, f x = some y := by
  induction xs generalizing ys with
  | nil =>
    intro x hx
    cases hx
  | cons first xs ih =>
    obtain ⟨y, rest, hy, hrest, rfl⟩ := mapM_cons_eq_some.mp h
    intro x hx
    rcases List.mem_cons.mp hx with rfl | htail
    · exact ⟨y, hy⟩
    · exact ih hrest x htail

theorem mapM_self {α : Type} {f : α → Option α} {xs : List α} (h : ∀ x ∈ xs, f x = some x) :
    xs.mapM f = some xs := by
  induction xs with
  | nil => rfl
  | cons x xs ih =>
    rw [mapM_cons_eq_some]
    exact ⟨x, xs, h x List.mem_cons_self, ih fun y hy => h y (List.mem_cons_of_mem _ hy), rfl⟩

theorem ne_nil_of_mapM {α β : Type} {f : α → Option β} {xs : List α} {ys : List β}
    (h : xs.mapM f = some ys) (hxs : xs ≠ []) : ys ≠ [] := by
  cases xs with
  | nil => exact absurd rfl hxs
  | cons x xs =>
    obtain ⟨y, rest, _, _, rfl⟩ := mapM_cons_eq_some.mp h
    exact List.cons_ne_nil _ _

theorem sized_eq_some {label ascii : Chars} :
    sized label = some ascii ↔ label = ascii ∧ 0 < label.length ∧ label.length < 64 := by
  unfold sized
  split
  next hsize => simp [hsize]
  next hsize => simp [not_and_of_not_right _ hsize]

variable {unicode : Unicode}

theorem toASCII_of_isAscii {label : Chars} (h : isAscii label = true) :
    toASCII unicode label = sized label := if_pos h

/-- What `ToASCII` gives is ASCII, without capitals where the label had none, of 1 to 63
characters. -/
theorem toASCII_spec (hdoc : unicode.Documented) {label ascii : Chars}
    (h : toASCII unicode label = some ascii) :
    isAscii ascii = true ∧ (Folded label → Folded ascii) ∧ 0 < ascii.length ∧ ascii.length < 64 := by
  by_cases hlabel : isAscii label = true
  · rw [toASCII_of_isAscii hlabel] at h
    obtain ⟨rfl, hsize⟩ := sized_eq_some.mp h
    exact ⟨hlabel, id, hsize⟩
  · rw [toASCII, if_neg hlabel] at h
    obtain ⟨prepared, hprepared, h⟩ := Option.bind_eq_some_iff.mp h
    have hfolded := hdoc.nameprep_folded _ _ hprepared
    split at h
    next hascii =>
      obtain ⟨rfl, hsize⟩ := sized_eq_some.mp h
      exact ⟨hascii, fun _ => hfolded, hsize⟩
    next =>
      split at h
      next => cases h
      next =>
        obtain ⟨rfl, hsize⟩ := sized_eq_some.mp h
        refine ⟨?_, fun _ => ?_, hsize⟩
        · unfold isAscii
          rw [List.all_append, Bool.and_eq_true]
          exact ⟨by decide, hdoc.punycode_ascii _⟩
        · intro c hc
          rcases List.mem_append.mp hc with hlead | hcode
          · have hace : acePrefix.all (fun c => c.isUpper == false) = true := by decide
            exact beq_iff_eq.mp (List.all_eq_true.mp hace c hlead)
          · exact hdoc.punycode_folded _ hfolded c hcode

theorem labelsOf_ne_nil (name : Chars) : labelsOf name ≠ [] := by
  unfold labelsOf
  split
  · exact List.splitOn_ne_nil _ _
  · exact List.splitOnP_ne_nil _ _

theorem subset_of_mem_splitOnP {p : Char → Bool} {part name : Chars} (h : part ∈ name.splitOnP p) :
    part ⊆ name := by
  induction name generalizing part with
  | nil =>
    rw [List.splitOnP_nil] at h
    rw [List.mem_singleton.mp h]
    exact List.nil_subset _
  | cons c name ih =>
    rw [List.splitOnP_cons_eq_if_modifyHead] at h
    split at h
    · rcases List.mem_cons.mp h with rfl | htail
      · exact List.nil_subset _
      · exact List.subset_cons_of_subset _ (ih htail)
    · obtain ⟨first, rest, hsplit⟩ := List.exists_cons_of_ne_nil (List.splitOnP_ne_nil p name)
      rw [hsplit, List.modifyHead_cons] at h
      rcases List.mem_cons.mp h with rfl | htail
      · exact List.cons_subset_cons _ (ih (hsplit ▸ List.mem_cons_self))
      · exact List.subset_cons_of_subset _ (ih (hsplit ▸ List.mem_cons_of_mem _ htail))

/-- The labels are parts of the name. -/
theorem subset_of_mem_labelsOf {label name : Chars} (h : label ∈ labelsOf name) : label ⊆ name := by
  unfold labelsOf at h
  split at h
  · exact (sublist_of_mem_splitOn h).subset
  · exact subset_of_mem_splitOnP h

/-! ## The codec, label by label -/

theorem encode_ascii {name : Chars} (hname : name ≠ []) (hascii : isAscii name = true) :
    encode unicode name =
      if (∀ label ∈ (name.splitOn '.').dropLast, 0 < label.length ∧ label.length < 64) ∧
          (∀ label ∈ (name.splitOn '.').getLast?, label.length < 64)
      then some name
      else none := by
  rw [encode, if_neg hname, if_pos hascii]

theorem encode_other {name : Chars} (hname : name ≠ []) (hascii : isAscii name ≠ true) :
    encode unicode name =
      if (name.splitOnP isDot).getLast? = some [] then
        ((name.splitOnP isDot).dropLast.mapM (toASCII unicode)).map fun ascii => join ascii ++ ['.']
      else ((name.splitOnP isDot).mapM (toASCII unicode)).map join := by
  rw [encode, if_neg hname, if_neg hascii]

/-- A name whose labels all have ASCII forms is encoded as these. -/
theorem encode_of_labels {name : Chars} {labels : List Chars}
    (h : (labelsOf name).mapM (toASCII unicode) = some labels) :
    encode unicode name = some (join labels) := by
  have hdefined := defined_of_mapM h
  have hname : name ≠ [] := by
    rintro rfl
    obtain ⟨_, hnone⟩ := hdefined [] List.mem_cons_self
    cases hnone
  by_cases hascii : isAscii name = true
  · have hlabels : labelsOf name = name.splitOn '.' := if_pos hascii
    rw [hlabels] at h hdefined
    have hself : ∀ label ∈ name.splitOn '.', toASCII unicode label = some label ∧
        0 < label.length ∧ label.length < 64 := by
      intro label hlabel
      obtain ⟨ascii, hsome⟩ := hdefined label hlabel
      rw [toASCII_of_isAscii (isAscii_of_subset (sublist_of_mem_splitOn hlabel).subset hascii)] at hsome
      obtain ⟨rfl, hsize⟩ := sized_eq_some.mp hsome
      rw [toASCII_of_isAscii (isAscii_of_subset (sublist_of_mem_splitOn hlabel).subset hascii)]
      exact ⟨hsome, hsize⟩
    rw [mapM_self fun label hlabel => (hself label hlabel).1] at h
    cases Option.some.inj h
    rw [encode_ascii hname hascii, join_splitOn]
    refine if_pos ⟨fun label hlabel => ?_, fun label hlabel => ?_⟩
    · exact (hself label (List.dropLast_subset _ hlabel)).2
    · exact (hself label (List.mem_of_getLast? hlabel)).2.2
  · have hlabels : labelsOf name = name.splitOnP isDot := if_neg hascii
    rw [hlabels] at h hdefined
    rw [encode_other hname hascii, if_neg, h]
    · rfl
    · intro hlast
      obtain ⟨_, hnone⟩ := hdefined [] (List.mem_of_getLast? hlast)
      cases hnone

theorem join_append_dot {labels : List Chars} : [] ∈ (join labels ++ ['.']).splitOn '.' := by
  rw [List.splitOn_append_cons_self]
  exact List.mem_append_right _ List.mem_cons_self

/-- An encoded name without empty labels is the ASCII forms of the labels. -/
theorem labels_of_encode {name ascii : Chars} (h : encode unicode name = some ascii)
    (hempty : [] ∉ ascii.splitOn '.') :
    ∃ labels, (labelsOf name).mapM (toASCII unicode) = some labels ∧ ascii = join labels := by
  by_cases hname : name = []
  · subst hname
    cases Option.some.inj (show some [] = some ascii from h)
    exact absurd List.mem_cons_self hempty
  by_cases hascii : isAscii name = true
  · rw [encode_ascii hname hascii] at h
    obtain ⟨⟨hfirst, hlast⟩, heq⟩ := Option.ite_none_right_eq_some.mp h
    cases Option.some.inj heq
    refine ⟨name.splitOn '.', ?_, (join_splitOn name).symm⟩
    rw [labelsOf, if_pos hascii]
    refine mapM_self fun label hlabel => ?_
    rw [toASCII_of_isAscii (isAscii_of_subset (sublist_of_mem_splitOn hlabel).subset hascii)]
    refine sized_eq_some.mpr ⟨rfl, List.length_pos_of_ne_nil fun hnil => hempty (hnil ▸ hlabel), ?_⟩
    rcases List.eq_nil_or_concat (name.splitOn '.') with hnil | ⟨early, final, hsplit⟩
    · rw [hnil] at hlabel
      cases hlabel
    · rw [List.concat_eq_append] at hsplit
      rw [hsplit] at hlabel hfirst hlast
      rw [List.dropLast_concat] at hfirst
      rcases List.mem_append.mp hlabel with hearly | hfinal
      · exact (hfirst label hearly).2
      · rw [List.mem_singleton.mp hfinal]
        exact hlast final List.getLast?_concat
  · rw [encode_other hname hascii] at h
    split at h
    · -- the trailing dot leaves an empty label
      obtain ⟨labels, _, rfl⟩ := Option.map_eq_some_iff.mp h
      exact absurd join_append_dot hempty
    · obtain ⟨labels, hlabels, rfl⟩ := Option.map_eq_some_iff.mp h
      refine ⟨labels, ?_, rfl⟩
      rw [labelsOf, if_neg hascii]
      exact hlabels

theorem isAscii_join {labels : List Chars} (h : ∀ label ∈ labels, isAscii label = true) :
    isAscii (join labels) = true := by
  rw [isAscii_iff]
  intro c hc
  by_cases hdot : c = '.'
  · rw [hdot]
    decide
  · obtain ⟨label, hlabel, hmem⟩ := (mem_join hdot).mp hc
    exact isAscii_iff.mp (h label hlabel) c hmem

theorem folded_join {labels : List Chars} (h : ∀ label ∈ labels, Folded label) :
    Folded (join labels) := by
  intro c hc
  by_cases hdot : c = '.'
  · rw [hdot]
    decide
  · obtain ⟨label, hlabel, hmem⟩ := (mem_join hdot).mp hc
    exact h label hlabel c hmem

/-- The labels of joined labels are as short as these. -/
theorem length_lt_of_join {labels : List Chars} (hne : labels ≠ []) {n : Nat}
    (h : ∀ label ∈ labels, label.length < n) : ∀ part ∈ (join labels).splitOn '.', part.length < n := by
  intro part hpart
  rw [splitOn_join hne] at hpart
  obtain ⟨label, hlabel, hpart⟩ := List.mem_flatMap.mp hpart
  exact lt_of_le_of_lt (sublist_of_mem_splitOn hpart).length_le (h label hlabel)

/-- An ASCII name of short labels is its own encoding. -/
theorem encode_self {name : Chars} (hascii : isAscii name = true)
    (h : ∀ label ∈ name.splitOn '.', label ≠ [] ∧ label.length < 64) : encode unicode name = some name := by
  have hlabels : (labelsOf name).mapM (toASCII unicode) = some (name.splitOn '.') := by
    rw [labelsOf, if_pos hascii]
    refine mapM_self fun label hlabel => ?_
    rw [toASCII_of_isAscii (isAscii_of_subset (sublist_of_mem_splitOn hlabel).subset hascii)]
    exact sized_eq_some.mpr ⟨rfl, List.length_pos_of_ne_nil (h label hlabel).1, (h label hlabel).2⟩
  rw [encode_of_labels hlabels, join_splitOn]

/-- The encoding of an ASCII name is the name. -/
theorem eq_of_encode {name ascii : Chars} (hascii : isAscii name = true)
    (h : encode unicode name = some ascii) : ascii = name := by
  by_cases hname : name = []
  · subst hname
    exact (Option.some.inj (show some [] = some ascii from h)).symm
  · rw [encode_ascii hname hascii] at h
    exact (Option.some.inj (Option.ite_none_right_eq_some.mp h).2).symm

end Dayfinch.Library.Idna
