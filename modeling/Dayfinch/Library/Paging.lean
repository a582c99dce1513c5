/-
# Dayfinch.Library.Paging -- reading a collection that is served page by page

A provider serves a collection in pages, and a client asks for page after page until it takes a page for
the last one. Three protocols are in use: pages are numbered, a page is asked for by the position of its
first entry, or each page names the token of the next one. `NumberedPages`, `OffsetPages` and `TokenPages`
say that a server answers by the protocol; `readNumbered`, `readOffsets` and `followTokens` are the clients.
The loops that have no bound of their own take one (`fuel`), and answer `none` when it is used up.

What a client does with the entries of a page is `keep`: an entry is refused, skipped or made an item of.
`Lists` is what a complete listing is, and `complete_iff` decides, for a client that has read some of the
entries, whether its listing is complete. The three read lemmas say what each client has read.
-/
import Dayfinch.Library.Outcome
import Mathlib.Data.List.Basic
import Mathlib.Tactic.Common

namespace Dayfinch.Library

universe u v

variable {ε : Type u} {α γ ρ σ τ : Type v}

/-! ## Entries -/

/-- The items of some entries, in order. `keep` refuses an entry, skips it or makes an item of it. -/
def collect (keep : γ → Except ε (Option α)) : List γ → Except ε (List α)
  | [] => .ok []
  | entry :: entries => do
    let item ← keep entry
    let items ← collect keep entries
    .ok (item.toList ++ items)

/-- The item of an entry that is neither refused nor skipped. -/
def itemOf (keep : γ → Except ε (Option α)) (entry : γ) : Option α :=
  match keep entry with
  | .ok item => item
  | .error _ => none

variable {keep : γ → Except ε (Option α)}

theorem itemOf_eq {entry : γ} {item : Option α} (h : keep entry = .ok item) : itemOf keep entry = item := by
  simp only [itemOf, h]

theorem collect_eq_ok {entries : List γ} {items : List α} :
    collect keep entries = .ok items ↔
      (∀ entry ∈ entries, (keep entry).isOk) ∧ entries.filterMap (itemOf keep) = items := by
  induction entries generalizing items with
  | nil => simp [collect]
  | cons entry entries ih =>
    constructor
    · intro h
      obtain ⟨item, hitem, h⟩ := bind_eq_ok.mp h
      obtain ⟨rest, hrest, h⟩ := bind_eq_ok.mp h
      obtain ⟨hok, hitems⟩ := ih.mp hrest
      cases h
      refine ⟨?_, ?_⟩
      · rintro e (_ | ⟨_, he⟩)
        · rw [hitem]
          rfl
        · exact hok e he
      · rw [List.filterMap_cons, itemOf_eq hitem, hitems]
        cases item with
        | none => rfl
        | some a => rfl
    · rintro ⟨hok, hitems⟩
      have hfirst := hok entry (List.mem_cons_self ..)
      cases hitem : keep entry with
      | error e =>
        rw [hitem] at hfirst
        cases hfirst
      | ok item =>
        have hrest := ih.mpr ⟨fun e he => hok e (List.mem_cons_of_mem _ he), rfl⟩
        refine bind_eq_ok.mpr ⟨item, hitem, bind_eq_ok.mpr ⟨_, hrest, ?_⟩⟩
        rw [← hitems, List.filterMap_cons, itemOf_eq hitem]
        cases item with
        | none => rfl
        | some a => rfl

theorem collect_append {xs ys : List γ} {items : List α} :
    collect keep (xs ++ ys) = .ok items ↔
      ∃ a b, collect keep xs = .ok a ∧ collect keep ys = .ok b ∧ items = a ++ b := by
  simp only [collect_eq_ok, List.mem_append, List.filterMap_append]
  constructor
  · rintro ⟨hok, rfl⟩
    exact ⟨_, _, ⟨fun e he => hok e (.inl he), rfl⟩, ⟨fun e he => hok e (.inr he), rfl⟩, rfl⟩
  · rintro ⟨_, _, ⟨hx, rfl⟩, ⟨hy, rfl⟩, rfl⟩
    refine ⟨?_, rfl⟩
    rintro e (he | he)
    · exact hx e he
    · exact hy e he

/-- A page is added as a whole, and then counted. -/
def addPage (keep : γ → Except ε (Option α)) (limit : Nat) (tooMany : ε) (items : List α)
    (entries : List γ) : Except ε (List α) := do
  let added ← collect keep entries
  if limit < (items ++ added).length then .error tooMany else .ok (items ++ added)

theorem collect_error {entries : List γ} {e : ε} (h : collect keep entries = .error e) :
    ∃ entry ∈ entries, keep entry = .error e := by
  induction entries with
  | nil => cases h
  | cons entry entries ih =>
    rcases bind_eq_error.mp h with h | ⟨item, _, h⟩
    · exact ⟨entry, List.mem_cons_self, h⟩
    · rcases bind_eq_error.mp h with h | ⟨items, _, h⟩
      · obtain ⟨entry', hmem, hkeep⟩ := ih h
        exact ⟨entry', List.mem_cons_of_mem entry hmem, hkeep⟩
      · cases h

theorem collect_length {entries : List γ} {items : List α} (h : collect keep entries = .ok items) :
    items.length ≤ entries.length := by
  obtain ⟨_, rfl⟩ := collect_eq_ok.mp h
  exact List.length_filterMap_le _ _

theorem addPage_length {limit : Nat} {tooMany : ε} {items found : List α} {entries : List γ}
    (h : addPage keep limit tooMany items entries = .ok found) : found.length ≤ items.length + entries.length := by
  obtain ⟨added, hadded, h⟩ := bind_eq_ok.mp h
  have hlength := collect_length hadded
  split at h
  · cases h
  · cases h
    rw [List.length_append]
    omega

/-- A page is refused for the number of items, or for one of its entries. -/
theorem addPage_error {limit : Nat} {tooMany : ε} {items : List α} {entries : List γ} {e : ε}
    (h : addPage keep limit tooMany items entries = .error e) :
    e = tooMany ∧ limit < items.length + entries.length ∨ ∃ entry ∈ entries, keep entry = .error e := by
  rcases bind_eq_error.mp h with h | ⟨added, hadded, h⟩
  · exact .inr (collect_error h)
  · have hlength := collect_length hadded
    split at h
    next hlimit =>
      cases h
      rw [List.length_append] at hlimit
      exact .inl ⟨rfl, by omega⟩
    next => cases h

/-- A page is added entry by entry, and counted each time. -/
def addEach (convert : γ → Except ε α) (limit : Nat) (tooMany : ε) :
    List α → List γ → Except ε (List α)
  | items, [] => .ok items
  | items, entry :: entries => do
    let item ← convert entry
    if limit < (items ++ [item]).length then .error tooMany
    else addEach convert limit tooMany (items ++ [item]) entries

/-- `accept` adds the items of a page to at most `limit` that it already has, and fails where there would
be more. -/
def Accepts (accept : List α → List γ → Except ε (List α)) (keep : γ → Except ε (Option α))
    (limit : Nat) : Prop :=
  ∀ items, items.length ≤ limit → ∀ entries found, accept items entries = .ok found ↔
    ∃ added, collect keep entries = .ok added ∧ found = items ++ added ∧ found.length ≤ limit

/-- The rule of sequence for a page that is added. -/
theorem Accepts.bind_eq_ok {accept : List α → List γ → Except ε (List α)} {limit : Nat}
    (haccept : Accepts accept keep limit) {items : List α} (hitems : items.length ≤ limit)
    {entries : List γ} {f : List α → Except ε ρ} {found : ρ} :
    (accept items entries >>= f) = .ok found ↔ ∃ added, collect keep entries = .ok added ∧
      (items ++ added).length ≤ limit ∧ f (items ++ added) = .ok found := by
  constructor
  · intro h
    obtain ⟨items', hitems', h⟩ := Library.bind_eq_ok.mp h
    obtain ⟨added, hadded, rfl, hle⟩ := (haccept items hitems entries _).mp hitems'
    exact ⟨added, hadded, hle, h⟩
  · rintro ⟨added, hadded, hle, h⟩
    exact Library.bind_eq_ok.mpr
      ⟨_, (haccept items hitems entries _).mpr ⟨added, hadded, rfl, hle⟩, h⟩

/-- What is found on two runs of entries is what is found on the first and then on the second. -/
theorem found_append {limit : Nat} {xs ys : List γ} {items found : List α} :
    (∃ added, collect keep xs = .ok added ∧ (items ++ added).length ≤ limit ∧
        ∃ more, collect keep ys = .ok more ∧ found = items ++ added ++ more ∧ found.length ≤ limit) ↔
      ∃ added, collect keep (xs ++ ys) = .ok added ∧ found = items ++ added ∧ found.length ≤ limit := by
  constructor
  · rintro ⟨added, hadded, _, more, hmore, rfl, hle⟩
    exact ⟨added ++ more, collect_append.mpr ⟨added, more, hadded, hmore, rfl⟩,
      List.append_assoc .., hle⟩
  · rintro ⟨_, hall, rfl, hle⟩
    obtain ⟨added, more, hadded, hmore, rfl⟩ := collect_append.mp hall
    refine ⟨added, hadded, ?_, more, hmore, (List.append_assoc ..).symm, hle⟩
    simp only [List.length_append] at hle ⊢
    omega

theorem addPage_accepts (keep : γ → Except ε (Option α)) (limit : Nat) (tooMany : ε) :
    Accepts (addPage keep limit tooMany) keep limit := by
  intro items _ entries found
  constructor
  · intro h
    obtain ⟨added, hadded, h⟩ := bind_eq_ok.mp h
    split at h
    · cases h
    · cases h
      exact ⟨added, hadded, rfl, by omega⟩
  · rintro ⟨added, hadded, rfl, hle⟩
    refine bind_eq_ok.mpr ⟨added, hadded, ?_⟩
    rw [if_neg (by omega)]

theorem addEach_accepts (convert : γ → Except ε α) (limit : Nat) (tooMany : ε) :
    Accepts (addEach convert limit tooMany) (fun entry => (convert entry).map some) limit := by
  intro items hitems entries
  induction entries generalizing items with
  | nil =>
    intro found
    simp only [addEach, collect, Except.ok.injEq]
    constructor
    · rintro rfl
      exact ⟨[], rfl, by rw [List.append_nil], hitems⟩
    · rintro ⟨_, rfl, rfl, _⟩
      rw [List.append_nil]
  | cons entry entries ih =>
    intro found
    constructor
    · intro h
      obtain ⟨item, hitem, h⟩ := bind_eq_ok.mp h
      split at h
      · cases h
      · rename_i hle
        obtain ⟨added, hadded, rfl, hlen⟩ := (ih _ (by omega) _).mp h
        refine ⟨item :: added, ?_, by simp, hlen⟩
        have hkept : (convert entry).map some = .ok (some item) := by
          rw [hitem]
          rfl
        exact bind_eq_ok.mpr ⟨some item, hkept, bind_eq_ok.mpr ⟨added, hadded, rfl⟩⟩
    · rintro ⟨added, hadded, rfl, hlen⟩
      obtain ⟨item?, hitem?, h⟩ := bind_eq_ok.mp hadded
      obtain ⟨rest, hrest, h⟩ := bind_eq_ok.mp h
      have hkept : (convert entry).map some = .ok item? := hitem?
      cases hitem : convert entry with
      | error e =>
        rw [hitem] at hkept
        cases hkept
      | ok item =>
        rw [hitem] at hkept
        cases hkept
        cases h
        refine bind_eq_ok.mpr ⟨item, hitem, ?_⟩
        simp only [Option.toList, List.length_append, List.length_cons, List.length_nil] at hlen ⊢
        rw [if_neg (by omega)]
        exact (ih _ (by simp only [List.length_append, List.length_cons, List.length_nil]; omega) _).mpr
          ⟨rest, hrest, by simp, by simp only [List.length_append, List.length_cons, List.length_nil]; omega⟩

/-! ## Complete listings -/

/-- Every entry that stands for an item of the collection is in the list, in the collection's order and
once. -/
def Lists (keep : γ → Except ε (Option α)) (isItem : γ → Bool) (entries : List γ) (items : List α) :
    Prop :=
  (entries.filter isItem).map (itemOf keep) = items.map some

/-- What is read of a collection settles the listing: an entry is refused, there are more items than are
accepted, or no item is skipped and none is left unread. -/
def ReadSuffices (keep : γ → Except ε (Option α)) (isItem : γ → Bool) (limit : Nat)
    (read unread : List γ) : Prop :=
  (∃ entry ∈ read, (keep entry).isOk = false) ∨ limit < (read.filterMap (itemOf keep)).length ∨
    ((∀ entry ∈ read, isItem entry → itemOf keep entry ≠ none) ∧ ∀ entry ∈ unread, isItem entry = false)

variable {isItem : γ → Bool}

/-- The items of the entries read are a complete listing where none is skipped and none is unread. -/
theorem lists_filterMap_iff (hitem : ∀ entry, itemOf keep entry ≠ none → isItem entry)
    {read unread : List γ} :
    Lists keep isItem (read ++ unread) (read.filterMap (itemOf keep)) ↔
      (∀ entry ∈ read, isItem entry → itemOf keep entry ≠ none) ∧
        ∀ entry ∈ unread, isItem entry = false := by
  have hread : (∀ entry ∈ read, isItem entry → itemOf keep entry ≠ none) →
      (read.filter isItem).map (itemOf keep) = (read.filterMap (itemOf keep)).map some := by
    intro hall
    induction read with
    | nil => rfl
    | cons entry read ih =>
      have ih := ih fun e he => hall e (List.mem_cons_of_mem _ he)
      cases hkept : itemOf keep entry with
      | none =>
        have hnot : ¬ isItem entry := fun h => hall entry (List.mem_cons_self ..) h hkept
        rw [List.filter_cons_of_neg hnot, List.filterMap_cons_none hkept, ih]
      | some item =>
        have his : isItem entry := hitem entry (by rw [hkept]; nofun)
        rw [List.filter_cons_of_pos his, List.map_cons, List.filterMap_cons_some hkept, List.map_cons,
          ih, hkept]
  unfold Lists
  rw [List.filter_append, List.map_append]
  constructor
  · intro h
    have hall : ∀ entry ∈ read, isItem entry → itemOf keep entry ≠ none := by
      intro entry hentry his hnone
      have hmem : none ∈ (read.filterMap (itemOf keep)).map some := by
        rw [← h]
        refine List.mem_append_left _ (List.mem_map.mpr ⟨entry, ?_, hnone⟩)
        exact List.mem_filter.mpr ⟨hentry, his⟩
      simp at hmem
    refine ⟨hall, ?_⟩
    intro entry hentry
    rw [hread hall] at h
    have hempty := List.map_eq_nil_iff.mp (List.append_right_eq_self.mp h)
    cases his : isItem entry with
    | false => rfl
    | true => exact absurd (List.mem_filter.mpr ⟨hentry, his⟩) (by simp [hempty])
  · rintro ⟨hall, hnone⟩
    rw [hread hall, List.filter_eq_nil_iff.mpr (by simpa using hnone), List.map_nil, List.append_nil]

/-- **Whether a listing is complete**: a client that finds the items of what it has read, up to a limit,
finds a complete listing or nothing exactly if what it has read suffices. -/
theorem complete_iff (hitem : ∀ entry, itemOf keep entry ≠ none → isItem entry) {limit : Nat}
    {read unread : List γ} {Finds : List α → Prop}
    (hfinds : ∀ items, Finds items ↔ collect keep read = .ok items ∧ items.length ≤ limit) :
    (∀ items, Finds items → Lists keep isItem (read ++ unread) items) ↔
      ReadSuffices keep isItem limit read unread := by
  unfold ReadSuffices
  constructor
  · intro h
    by_cases hok : ∀ entry ∈ read, (keep entry).isOk
    · refine .inr ?_
      by_cases hlimit : limit < (read.filterMap (itemOf keep)).length
      · exact .inl hlimit
      · refine .inr ((lists_filterMap_iff hitem).mp (h _ ?_))
        exact (hfinds _).mpr ⟨collect_eq_ok.mpr ⟨hok, rfl⟩, by omega⟩
    · push Not at hok
      obtain ⟨entry, hentry, hnot⟩ := hok
      exact .inl ⟨entry, hentry, by simpa using hnot⟩
  · intro h items hitems
    obtain ⟨hcollect, hle⟩ := (hfinds items).mp hitems
    obtain ⟨hok, rfl⟩ := collect_eq_ok.mp hcollect
    rcases h with ⟨entry, hentry, hnot⟩ | hlimit | hall
    · rw [hok entry hentry] at hnot
      cases hnot
    · omega
    · exact (lists_filterMap_iff hitem).mpr hall

/-! ## Numbered pages -/

/-- The pages up to the first one that stops the reading, with that one. -/
def upTo (stops : ρ → Bool) : List ρ → List ρ
  | [] => []
  | page :: pages => if stops page then [page] else page :: upTo stops pages

theorem upTo_initial (stops : ρ → Bool) (pages : List ρ) : upTo stops pages <+: pages := by
  induction pages with
  | nil => exact List.prefix_rfl
  | cons page pages ih =>
    unfold upTo
    split
    · exact ⟨pages, rfl⟩
    · exact (List.prefix_cons_inj page).mpr ih

/-- The pages that a client reads that stops at a short page, and after `left` pages. -/
def numberedRead (full left : Nat) (pages : List (List γ)) : List (List γ) :=
  upTo (fun page => decide (page.length < full)) (pages.take left)

theorem numberedRead_append (full left : Nat) (pages : List (List γ)) :
    numberedRead full left pages ++ pages.drop (numberedRead full left pages).length = pages :=
  List.prefix_iff_eq_append.mp ((upTo_initial _ _).trans (List.take_prefix left pages))

/-- The server answers the request for page `k`, counted from one, by the page; behind the last page it
answers with an empty one. -/
def NumberedPages (request : Nat → Except ε (List γ)) (pages : List (List γ)) : Prop :=
  ∀ k, request (k + 1) = .ok (pages[k]?.getD [])

/-- Asks for page after page, for `left` pages at most, and stops at one that has fewer than `full`
entries. -/
def readNumbered (full : Nat) (accept : List α → List γ → Except ε (List α))
    (request : Nat → Except ε (List γ)) : Nat → Nat → List α → Except ε (List α)
  | 0, _, items => .ok items
  | left + 1, page, items => do
    let batch ← request page
    let items ← accept items batch
    if batch.length < full then .ok items
    else readNumbered full accept request left (page + 1) items

/-- What a client of numbered pages finds, from the first of `pages` on. -/
theorem readNumbered_eq_ok {accept : List α → List γ → Except ε (List α)} {limit full : Nat}
    (haccept : Accepts accept keep limit) (hfull : 0 < full) {request : Nat → Except ε (List γ)}
    (left : Nat) : ∀ (page : Nat) (pages : List (List γ)) (items : List α), items.length ≤ limit →
      (∀ k, request (page + k) = .ok (pages[k]?.getD [])) → ∀ found,
      readNumbered full accept request left page items = .ok found ↔
        ∃ added, collect keep (numberedRead full left pages).flatten = .ok added ∧
          found = items ++ added ∧ found.length ≤ limit := by
  induction left with
  | zero =>
    intro page pages items hitems _ found
    simp only [readNumbered, numberedRead, List.take_zero, upTo, List.flatten_nil, collect, Except.ok.injEq]
    constructor
    · rintro rfl
      exact ⟨[], rfl, by rw [List.append_nil], hitems⟩
    · rintro ⟨_, rfl, rfl, _⟩
      rw [List.append_nil]
  | succ left ih =>
    intro page pages items hitems hrequest found
    have hpage := hrequest 0
    rw [Nat.add_zero] at hpage
    unfold readNumbered
    rw [hpage]
    show (accept items (pages[0]?.getD []) >>= fun items => if (pages[0]?.getD []).length < full
      then .ok items else readNumbered full accept request left (page + 1) items) = .ok found ↔ _
    rw [haccept.bind_eq_ok hitems]
    cases pages with
    | nil =>
      -- the page behind the last one is empty and ends the reading
      have hempty : (([] : List (List γ))[0]?.getD []).length < full := hfull
      simp only [if_pos hempty, numberedRead, List.take_nil, upTo, List.flatten_nil]
      constructor
      · rintro ⟨added, hadded, hle, h⟩
        cases h
        exact ⟨added, hadded, rfl, hle⟩
      · rintro ⟨added, hadded, rfl, hle⟩
        exact ⟨added, hadded, hle, rfl⟩
    | cons batch pages =>
      have hnext : ∀ k, request (page + 1 + k) = .ok (pages[k]?.getD []) := by
        intro k
        have hk := hrequest (k + 1)
        rw [List.getElem?_cons_succ] at hk
        rw [← hk]
        congr 1
        omega
      have hbatch : (batch :: pages)[0]?.getD [] = batch := rfl
      simp only [hbatch, numberedRead, List.take_succ_cons, upTo, decide_eq_true_eq]
      by_cases hshort : batch.length < full
      · simp only [if_pos hshort, List.flatten_cons, List.flatten_nil, List.append_nil]
        constructor
        · rintro ⟨added, hadded, hle, h⟩
          cases h
          exact ⟨added, hadded, rfl, hle⟩
        · rintro ⟨added, hadded, rfl, hle⟩
          exact ⟨added, hadded, hle, rfl⟩
      · simp only [if_neg hshort, List.flatten_cons]
        rw [← found_append]
        constructor
        · rintro ⟨added, hadded, hle, h⟩
          exact ⟨added, hadded, hle, (ih _ pages _ hle hnext found).mp h⟩
        · rintro ⟨added, hadded, hle, h⟩
          exact ⟨added, hadded, hle, (ih _ pages _ hle hnext found).mpr h⟩

/-- **A listing by numbered pages** is complete, or fails, exactly if the pages up to the first short one
suffice. -/
theorem readNumbered_complete_iff (hitem : ∀ entry, itemOf keep entry ≠ none → isItem entry)
    {accept : List α → List γ → Except ε (List α)} {limit full : Nat}
    (haccept : Accepts accept keep limit) (hfull : 0 < full) {request : Nat → Except ε (List γ)}
    {pages : List (List γ)} (hpages : NumberedPages request pages) (left : Nat) :
    Ensures (readNumbered full accept request left 1 []) (Lists keep isItem pages.flatten) ↔
      ReadSuffices keep isItem limit (numberedRead full left pages).flatten
        (pages.drop (numberedRead full left pages).length).flatten := by
  have hsplit := congrArg List.flatten (numberedRead_append full left pages)
  rw [List.flatten_append] at hsplit
  have hrequest : ∀ k, request (1 + k) = .ok (pages[k]?.getD []) := by
    intro k
    rw [Nat.add_comm]
    exact hpages k
  have hfinds : ∀ items, readNumbered full accept request left 1 [] = .ok items ↔
      collect keep (numberedRead full left pages).flatten = .ok items ∧ items.length ≤ limit := by
    intro items
    rw [readNumbered_eq_ok haccept hfull left 1 pages [] (Nat.zero_le _) hrequest]
    constructor
    · rintro ⟨added, hadded, rfl, hle⟩
      exact ⟨hadded, hle⟩
    · rintro ⟨hadded, hle⟩
      exact ⟨items, hadded, rfl, hle⟩
  rw [← complete_iff hitem hfinds, hsplit]
  exact Iff.rfl

/-! ## Reading from cursor to cursor -/

/-- Asks for a page, adds its items and goes on at the cursor that `next` takes from it, until there is
none. Before each page it asks for the right to go on (`renew`). -/
def readPages (accept : List α → List γ → Except ε (List α)) (entries : ρ → List γ)
    (next : σ → ρ → Except ε (Option σ)) (renew : Nat → Except ε PUnit) (request : σ → Except ε ρ) :
    Nat → Nat → σ → List α → Except ε (Option (List α))
  | 0, _, _, _ => .ok none
  | fuel + 1, round, cursor, items => do
    let _ ← renew round
    let page ← request cursor
    let items ← accept items (entries page)
    match ← next cursor page with
    | none => .ok (some items)
    | some cursor => readPages accept entries next renew request fuel (round + 1) cursor items

/-- The pages that are read from a cursor on, and whether the last of them ends the reading; otherwise its
cursor is refused. -/
inductive Reads (next : σ → ρ → Except ε (Option σ)) (request : σ → Except ε ρ) :
    σ → List ρ → Bool → Prop
  | ends {cursor : σ} {page : ρ} (hpage : request cursor = .ok page)
      (hnext : next cursor page = .ok none) : Reads next request cursor [page] true
  | refused {cursor : σ} {page : ρ} {e : ε} (hpage : request cursor = .ok page)
      (hnext : next cursor page = .error e) : Reads next request cursor [page] false
  | step {cursor cursor' : σ} {page : ρ} {pages : List ρ} {ended : Bool}
      (hpage : request cursor = .ok page) (hnext : next cursor page = .ok (some cursor'))
      (hpages : Reads next request cursor' pages ended) :
      Reads next request cursor (page :: pages) ended

/-- One round of a reading. -/
theorem readPages_succ {accept : List α → List γ → Except ε (List α)} {limit : Nat}
    (haccept : Accepts accept keep limit) {entries : ρ → List γ} {next : σ → ρ → Except ε (Option σ)}
    {renew : Nat → Except ε PUnit} {request : σ → Except ε ρ} {cursor : σ} {page : ρ}
    (hpage : request cursor = .ok page) {fuel round : Nat} {items : List α}
    (hitems : items.length ≤ limit) {found : Option (List α)} :
    readPages accept entries next renew request (fuel + 1) round cursor items = .ok found ↔
      (renew round).isOk ∧ ∃ added, collect keep (entries page) = .ok added ∧
        (items ++ added).length ≤ limit ∧ ∃ cursor?, next cursor page = .ok cursor? ∧
          (cursor?.elim (.ok (some (items ++ added))) fun cursor =>
            readPages accept entries next renew request fuel (round + 1) cursor (items ++ added)) =
              .ok found := by
  rw [readPages, hpage]
  cases hrenew : renew round with
  | error e =>
    constructor
    · intro h
      cases h
    · rintro ⟨h, _⟩
      cases h
  | ok u =>
    refine Iff.trans (haccept.bind_eq_ok hitems) ⟨?_, ?_⟩
    · rintro ⟨added, hadded, hle, h⟩
      obtain ⟨cursor?, hnext, h⟩ := bind_eq_ok.mp h
      refine ⟨rfl, added, hadded, hle, cursor?, hnext, ?_⟩
      cases cursor? with
      | none => exact h
      | some cursor => exact h
    · rintro ⟨_, added, hadded, hle, cursor?, hnext, h⟩
      refine ⟨added, hadded, hle, bind_eq_ok.mpr ⟨cursor?, hnext, ?_⟩⟩
      cases cursor? with
      | none => exact h
      | some cursor => exact h

/-- **What a reading returns**: the items of the pages it reads, if it may go on before each of them. -/
theorem readPages_eq_ok {accept : List α → List γ → Except ε (List α)} {limit : Nat}
    (haccept : Accepts accept keep limit) {next : σ → ρ → Except ε (Option σ)} {request : σ → Except ε ρ}
    {cursor : σ} {pages : List ρ} {ended : Bool} (h : Reads next request cursor pages ended)
    (entries : ρ → List γ) (renew : Nat → Except ε PUnit) :
    ∀ (fuel round : Nat) (items : List α), pages.length ≤ fuel → items.length ≤ limit → ∀ found,
      readPages accept entries next renew request fuel round cursor items = .ok found ↔
        (ended = true ∧ ∀ k < pages.length, (renew (round + k)).isOk) ∧
          ∃ all, found = some all ∧ ∃ added, collect keep (pages.flatMap entries) = .ok added ∧
            all = items ++ added ∧ all.length ≤ limit := by
  induction h with
  | @ends cursor page hpage hnext =>
    intro fuel round items hfuel hitems found
    obtain ⟨fuel, rfl⟩ : ∃ n, fuel = n + 1 := ⟨fuel - 1, by simp at hfuel; omega⟩
    rw [readPages_succ haccept hpage hitems, List.flatMap_singleton]
    constructor
    · rintro ⟨hrenew, added, hadded, hle, _, hcursor, h⟩
      rw [hnext] at hcursor
      cases hcursor
      cases h
      refine ⟨⟨rfl, ?_⟩, _, rfl, added, hadded, rfl, hle⟩
      intro k hk
      rw [show k = 0 by simpa using hk]
      exact hrenew
    · rintro ⟨⟨_, hrenew⟩, _, rfl, added, hadded, rfl, hle⟩
      exact ⟨hrenew 0 (by simp), added, hadded, hle, none, hnext, rfl⟩
  | @refused cursor page e hpage hnext =>
    intro fuel round items hfuel hitems found
    obtain ⟨fuel, rfl⟩ : ∃ n, fuel = n + 1 := ⟨fuel - 1, by simp at hfuel; omega⟩
    rw [readPages_succ haccept hpage hitems]
    constructor
    · rintro ⟨_, _, _, _, _, hcursor, _⟩
      rw [hnext] at hcursor
      cases hcursor
    · rintro ⟨⟨h, _⟩, _⟩
      cases h
  | @step cursor cursor' page pages ended hpage hnext hpages ih =>
    intro fuel round items hfuel hitems found
    obtain ⟨fuel, rfl⟩ : ∃ n, fuel = n + 1 := ⟨fuel - 1, by simp at hfuel; omega⟩
    have hfuel' : pages.length ≤ fuel := by simpa using hfuel
    rw [readPages_succ haccept hpage hitems, List.flatMap_cons]
    simp only [← found_append]
    constructor
    · rintro ⟨hrenew, added, hadded, hle, _, hcursor, h⟩
      rw [hnext] at hcursor
      cases hcursor
      obtain ⟨⟨hended, hrest⟩, all, rfl, hmore⟩ := (ih fuel (round + 1) _ hfuel' hle found).mp h
      refine ⟨⟨hended, ?_⟩, all, rfl, added, hadded, hle, hmore⟩
      intro k hk
      cases k with
      | zero => exact hrenew
      | succ k =>
        have := hrest k (by simpa using hk)
        rwa [show round + (k + 1) = round + 1 + k by omega]
    · rintro ⟨⟨hended, hrenew⟩, all, rfl, added, hadded, hle, h⟩
      refine ⟨hrenew 0 (by simp), added, hadded, hle, _, hnext, ?_⟩
      refine (ih fuel (round + 1) _ hfuel' hle _).mpr ⟨⟨hended, ?_⟩, all, rfl, h⟩
      intro k hk
      have := hrenew (k + 1) (by simpa using hk)
      rwa [show round + (k + 1) = round + 1 + k by omega] at this

/-- A reading accepts no more than its limit. -/
theorem readPages_length {accept : List α → List γ → Except ε (List α)} {limit : Nat}
    (haccept : Accepts accept keep limit) {entries : ρ → List γ} {next : σ → ρ → Except ε (Option σ)}
    {renew : Nat → Except ε PUnit} {request : σ → Except ε ρ} {fuel round : Nat} {cursor : σ} {items found : List α}
    (hitems : items.length ≤ limit)
    (h : readPages accept entries next renew request fuel round cursor items = .ok (some found)) :
    found.length ≤ limit := by
  induction fuel generalizing round cursor items with
  | zero => cases h
  | succ fuel ih =>
    unfold readPages at h
    obtain ⟨_, _, h⟩ := bind_eq_ok.mp h
    obtain ⟨page, _, h⟩ := bind_eq_ok.mp h
    obtain ⟨added, hadded, h⟩ := bind_eq_ok.mp h
    obtain ⟨more, _, rfl, hle⟩ := (haccept items hitems _ _).mp hadded
    obtain ⟨cursor?, _, h⟩ := bind_eq_ok.mp h
    cases cursor? with
    | none =>
      cases h
      exact hle
    | some cursor => exact ih hle h

/-- A reading that has come to an end has found every item. -/
def FoundAll (keep : γ → Except ε (Option α)) (isItem : γ → Bool) (entries : List γ)
    (found : Option (List α)) : Prop :=
  ∃ items, found = some items ∧ Lists keep isItem entries items

/-! ## Pages by position -/

/-- A page that is asked for by the position of its first entry. The server may say whether it is the
last one and how many entries there are: `some none` is a total that is not a number. -/
structure OffsetPage (γ : Type) where
  values : List γ
  isLast : Option Bool
  total : Option (Option Int)

namespace OffsetPage

variable {γ : Type}

/-- The total is left out, or it is the size of the collection. -/
def Counts (page : OffsetPage γ) (size : Nat) : Prop :=
  page.total = none ∨ page.total = some (some (size : Int))

/-- The server does not say how many entries there are. -/
def uncounted (page : OffsetPage γ) : Bool := page.total.isNone

/-- The total, or `nextStart` where there is none. -/
def totalOr (invalid : ε) (nextStart : Int) (page : OffsetPage γ) : Except ε Int :=
  match page.total with
  | none => .ok nextStart
  | some none => .error invalid
  | some (some total) => .ok total

/-- The position of the next page. The reading stops at a page that is the last one, is empty or reaches
the total. -/
def next (invalid : ε) (start : Nat) (page : OffsetPage γ) : Except ε (Option Nat) :=
  if page.isLast = some true ∨ page.values = [] then .ok none
  else do
    let nextStart := start + page.values.length
    let total ← page.totalOr invalid nextStart
    .ok (if nextStart ≤ start ∨ total ≤ nextStart then none else some nextStart)

/-- Without a total the page's own end is taken for it, and the reading stops. -/
theorem next_of_uncounted {page : OffsetPage γ} (h : page.uncounted) (invalid : ε) (start : Nat) :
    page.next invalid start = .ok none := by
  have htotal : page.totalOr invalid (start + page.values.length : Nat) =
      .ok ((start + page.values.length : Nat) : Int) := by
    rw [uncounted, Option.isNone_iff_eq_none] at h
    simp only [totalOr, h]
  unfold next
  split
  · rfl
  · exact bind_eq_ok.mpr ⟨_, htotal, by rw [if_pos (.inr (Int.le_refl _))]⟩

/-- A page that counts the collection truthfully is followed by the next one if there is more. -/
theorem next_of_counted {page : OffsetPage γ} {size : Nat} (h : page.total = some (some (size : Int)))
    (invalid : ε) {start : Nat} (hvalues : page.values ≠ []) (hlast : page.isLast ≠ some true) :
    page.next invalid start =
      .ok (if start + page.values.length < size then some (start + page.values.length) else none) := by
  have htotal : page.totalOr invalid (start + page.values.length : Nat) = .ok (size : Int) := by
    simp only [totalOr, h]
  have hlen : 0 < page.values.length := List.length_pos_iff.mpr hvalues
  unfold next
  rw [if_neg (by rintro (h | h); exact hlast h; exact hvalues h)]
  refine bind_eq_ok.mpr ⟨_, htotal, ?_⟩
  by_cases hmore : start + page.values.length < size
  · rw [if_pos hmore, if_neg (by omega)]
  · rw [if_neg hmore, if_pos (by omega)]

/-- A page that reaches the end of the collection ends the reading. -/
theorem next_at_end {page : OffsetPage γ} {size : Nat} (h : page.Counts size) (invalid : ε) {start : Nat}
    (hend : start + page.values.length = size) : page.next invalid start = .ok none := by
  rcases h with h | h
  · exact next_of_uncounted (by simp [uncounted, h]) invalid start
  · by_cases hstops : page.isLast = some true ∨ page.values = []
    · rw [next, if_pos hstops]
    · push Not at hstops
      rw [next_of_counted h invalid hstops.2 hstops.1, if_neg (by omega)]

end OffsetPage

/-- From position `start` on, the server answers by these pages of a collection of `size` entries. A page
that has others behind it has entries of its own and does not call itself the last. -/
inductive OffsetPages {γ : Type} (request : Nat → Except ε (OffsetPage γ)) (size : Nat) :
    Nat → List (OffsetPage γ) → Prop
  | last {start : Nat} {page : OffsetPage γ} (hpage : request start = .ok page)
      (htotal : page.Counts size) (hend : start + page.values.length = size) :
      OffsetPages request size start [page]
  | next {start : Nat} {page : OffsetPage γ} {pages : List (OffsetPage γ)}
      (hpage : request start = .ok page) (htotal : page.Counts size) (hvalues : page.values ≠ [])
      (hlast : page.isLast ≠ some true) (hmore : start + page.values.length < size)
      (hpages : OffsetPages request size (start + page.values.length) pages) :
      OffsetPages request size start (page :: pages)

/-- **What is read by position**: the pages up to the first one without a total. -/
theorem OffsetPages.reads {γ : Type} {request : Nat → Except ε (OffsetPage γ)} {size start : Nat}
    {pages : List (OffsetPage γ)} (h : OffsetPages request size start pages) (invalid : ε) :
    Reads (OffsetPage.next invalid) request start (upTo OffsetPage.uncounted pages) true := by
  induction h with
  | @last start page hpage htotal hend =>
    have hone : upTo OffsetPage.uncounted [page] = [page] := by
      unfold upTo
      split
      · rfl
      · rfl
    rw [hone]
    exact .ends hpage (OffsetPage.next_at_end htotal invalid hend)
  | @next start page pages hpage htotal hvalues hlast hmore hpages ih =>
    unfold upTo
    rcases htotal with htotal | htotal
    · have hstops : page.uncounted := by simp [OffsetPage.uncounted, htotal]
      rw [if_pos hstops]
      exact .ends hpage (OffsetPage.next_of_uncounted hstops invalid start)
    · have hgoes : ¬ page.uncounted := by simp [OffsetPage.uncounted, htotal]
      rw [if_neg hgoes]
      refine .step hpage ?_ ih
      rw [OffsetPage.next_of_counted htotal invalid hvalues hlast, if_pos hmore]

theorem OffsetPages.length_upTo_le {γ : Type} (pages : List (OffsetPage γ)) :
    (upTo OffsetPage.uncounted pages).length ≤ pages.length :=
  (upTo_initial _ _).length_le

/-- The entries that are read by position. -/
def offsetRead {γ : Type} (pages : List (OffsetPage γ)) : List γ :=
  (upTo OffsetPage.uncounted pages).flatMap (·.values)

/-- The entries behind the first page without a total. -/
def offsetUnread {γ : Type} (pages : List (OffsetPage γ)) : List γ :=
  (pages.drop (upTo OffsetPage.uncounted pages).length).flatMap (·.values)

theorem offsetRead_append {γ : Type} (pages : List (OffsetPage γ)) :
    offsetRead pages ++ offsetUnread pages = pages.flatMap (·.values) := by
  unfold offsetRead offsetUnread
  rw [← List.flatMap_append, List.prefix_iff_eq_append.mp (upTo_initial _ _)]

/-- **A listing by position** is complete, or fails, exactly if it may not go on before one of the pages
up to the first without a total, or these pages suffice. -/
theorem OffsetPages.complete_iff {α γ : Type} {keep : γ → Except ε (Option α)} {isItem : γ → Bool}
    (hitem : ∀ entry, itemOf keep entry ≠ none → isItem entry)
    {accept : List α → List γ → Except ε (List α)} {limit : Nat} (haccept : Accepts accept keep limit)
    {request : Nat → Except ε (OffsetPage γ)} {size : Nat} {pages : List (OffsetPage γ)}
    (hpages : OffsetPages request size 0 pages) (invalid : ε) (renew : Nat → Except ε PUnit) {fuel : Nat}
    (hfuel : pages.length ≤ fuel) :
    Ensures (readPages accept OffsetPage.values (OffsetPage.next invalid) renew request fuel 0 0 [])
        (FoundAll keep isItem (pages.flatMap (·.values))) ↔
      (∃ k < (upTo OffsetPage.uncounted pages).length, (renew k).isOk = false) ∨
        ReadSuffices keep isItem limit (offsetRead pages) (offsetUnread pages) := by
  have hread := readPages_eq_ok haccept (hpages.reads invalid) OffsetPage.values renew fuel 0 []
    (Nat.le_trans (length_upTo_le pages) hfuel) (Nat.zero_le _)
  simp only [List.nil_append, Nat.zero_add, true_and] at hread
  by_cases hrenew : ∀ k < (upTo OffsetPage.uncounted pages).length, (renew k).isOk
  · have hnot : ¬ ∃ k < (upTo OffsetPage.uncounted pages).length, (renew k).isOk = false := by
      rintro ⟨k, hk, hfalse⟩
      rw [hrenew k hk] at hfalse
      cases hfalse
    rw [or_iff_right hnot, ← Library.complete_iff hitem fun _ => Iff.rfl, offsetRead_append]
    constructor
    · rintro h items ⟨hcollect, hle⟩
      obtain ⟨_, hsome, hlists⟩ := h _ ((hread (some items)).mpr
        ⟨hrenew, items, rfl, items, hcollect, rfl, hle⟩)
      cases hsome
      exact hlists
    · intro h found hfound
      obtain ⟨_, items, rfl, _, hcollect, rfl, hle⟩ := (hread found).mp hfound
      exact ⟨items, rfl, h items ⟨hcollect, hle⟩⟩
  · have hrefused : ∃ k < (upTo OffsetPage.uncounted pages).length, (renew k).isOk = false := by
      push Not at hrenew
      obtain ⟨k, hk, hnot⟩ := hrenew
      exact ⟨k, hk, by simpa using hnot⟩
    refine iff_of_true ?_ (.inl hrefused)
    intro found hfound
    exact absurd ((hread found).mp hfound).1 hrenew

/-! ## Pages by token -/

/-- A page that names the token of the next one: `none` at the last page, `some none` is a token that is
none. -/
structure TokenPage (τ γ : Type v) where
  entries : List γ
  next : Option (Option τ)

/-- From `token` on, the server answers by these pages. The token of a next page is never `first`, which
stands for the request without one. -/
inductive TokenPages (request : τ → Except ε (TokenPage τ γ)) (first : τ) :
    τ → List (TokenPage τ γ) → Prop
  | last {token : τ} {page : TokenPage τ γ} (hpage : request token = .ok page)
      (hnext : page.next = none) : TokenPages request first token [page]
  | next {token token' : τ} {page : TokenPage τ γ} {pages : List (TokenPage τ γ)}
      (hpage : request token = .ok page) (hnext : page.next = some (some token'))
      (hfirst : token' ≠ first) (hpages : TokenPages request first token' pages) :
      TokenPages request first token (page :: pages)

/-- A client that stops only where there is no token, and either goes on at the token or refuses it; it
remembers the tokens it has seen. -/
structure Follows (first : τ) (next : τ × List τ → TokenPage τ γ → Except ε (Option (τ × List τ))) :
    Prop where
  atEnd : ∀ cursor page, page.next = none → next cursor page = .ok none
  atToken : ∀ cursor page token, page.next = some (some token) → token ≠ first →
    (∃ e, next cursor page = .error e) ∨ ∃ seen, next cursor page = .ok (some (token, seen))

/-- **What is read by token**: every page, unless a token is refused. -/
theorem TokenPages.reads {request : τ → Except ε (TokenPage τ γ)} {first token : τ}
    {pages : List (TokenPage τ γ)} (h : TokenPages request first token pages)
    {next : τ × List τ → TokenPage τ γ → Except ε (Option (τ × List τ))} (hnext : Follows first next)
    (seen : List τ) :
    ∃ read ended, Reads next (fun cursor => request cursor.1) (token, seen) read ended ∧
      read.length ≤ pages.length ∧ (ended = true → read = pages) := by
  induction h generalizing seen with
  | @last token page hpage hlast =>
    exact ⟨[page], true, .ends hpage (hnext.atEnd _ _ hlast), Nat.le_refl _, fun _ => rfl⟩
  | @next token token' page pages hpage htoken hfirst hpages ih =>
    rcases hnext.atToken (token, seen) page token' htoken hfirst with ⟨e, hrefused⟩ | ⟨seen', hgoes⟩
    · exact ⟨[page], false, .refused hpage hrefused, by simp, nofun⟩
    · obtain ⟨read, ended, hreads, hlen, hall⟩ := ih seen'
      refine ⟨page :: read, ended, .step hpage hgoes hreads, by simpa using hlen, ?_⟩
      intro hended
      rw [hall hended]

theorem TokenPages.unique {request : τ → Except ε (TokenPage τ γ)} {first token : τ}
    {pages pages' : List (TokenPage τ γ)} (h : TokenPages request first token pages)
    (h' : TokenPages request first token pages') : pages = pages' := by
  induction h generalizing pages' with
  | last hpage hnext =>
    cases h' with
    | last hpage' _ =>
      cases hpage.symm.trans hpage'
      rfl
    | next hpage' hnext' _ _ =>
      cases hpage.symm.trans hpage'
      cases hnext.symm.trans hnext'
  | next hpage hnext _ _ ih =>
    cases h' with
    | last hpage' hnext' =>
      cases hpage.symm.trans hpage'
      cases hnext.symm.trans hnext'
    | next hpage' hnext' _ hpages' =>
      cases hpage.symm.trans hpage'
      cases hnext.symm.trans hnext'
      rw [ih hpages']

/-- **What a reading fails with**, where the server answers: what it fails with of its own. At most `total` items
are on the pages, and no token comes again. -/
theorem TokenPages.fails {request : τ → Except ε (TokenPage τ γ)} {first token : τ}
    {pages : List (TokenPage τ γ)} (hpages : TokenPages request first token pages)
    {next : τ × List τ → TokenPage τ γ → Except ε (Option (τ × List τ))} (hnext : Follows first next)
    {accept : List α → List γ → Except ε (List α)} {renew : Nat → Except ε PUnit} {P : ε → Prop} (total : Nat)
    (hseen : ∀ cursor page cursor', next cursor page = .ok (some cursor') → cursor'.2 ⊆ cursor'.1 :: cursor.2)
    (hgrows : ∀ items entries items', accept items entries = .ok items' →
      items'.length ≤ items.length + entries.length)
    (hrenews : ∀ round e, renew round = .error e → P e)
    (haccepts : ∀ items, ∀ page ∈ pages, ∀ e, items.length + page.entries.length ≤ total →
      accept items page.entries = .error e → P e)
    (hnexts : ∀ cursor, ∀ page ∈ pages, ∀ token e, page.next = some (some token) → token ∉ cursor.2 →
      next cursor page = .error e → P e)
    {fuel round : Nat} {seen : List τ} {items : List α} {e : ε}
    (hold : ∀ t ∈ seen, ∃ pages', TokenPages request first t pages' ∧ pages.length ≤ pages'.length)
    (htotal : items.length + (pages.flatMap (·.entries)).length ≤ total)
    (h : readPages accept TokenPage.entries next renew (fun cursor => request cursor.1) fuel round (token, seen)
      items = .error e) : P e := by
  induction hpages generalizing fuel round seen items with
  | @last token page hpage hlast =>
    cases fuel with
    | zero => cases h
    | succ fuel =>
      unfold readPages at h
      rw [hpage] at h
      rcases bind_eq_error.mp h with h | ⟨_, _, h⟩
      · exact hrenews round e h
      rcases bind_eq_error.mp h with h | ⟨_, hsame, h⟩
      · cases h
      cases hsame
      rcases bind_eq_error.mp h with h | ⟨_, _, h⟩
      · exact haccepts _ _ List.mem_cons_self e (by simpa using htotal) h
      rw [hnext.atEnd _ _ hlast] at h
      cases h
  | @next token token' page pages hpage htoken hfirst hpages ih =>
    have hfresh : token' ∉ seen := by
      intro hmem
      obtain ⟨pages', hpages', hlength⟩ := hold token' hmem
      rw [hpages'.unique hpages, List.length_cons] at hlength
      omega
    rw [List.flatMap_cons, List.length_append] at htotal
    cases fuel with
    | zero => cases h
    | succ fuel =>
      unfold readPages at h
      rw [hpage] at h
      rcases bind_eq_error.mp h with h | ⟨_, _, h⟩
      · exact hrenews round e h
      rcases bind_eq_error.mp h with h | ⟨_, hsame, h⟩
      · cases h
      cases hsame
      rcases bind_eq_error.mp h with h | ⟨items', hitems, h⟩
      · exact haccepts _ _ List.mem_cons_self e (by omega) h
      rcases hnext.atToken (token, seen) page token' htoken hfirst with ⟨e', hrefused⟩ | ⟨seen', hgoes⟩
      · rw [hrefused] at h
        cases h
        exact hnexts _ _ List.mem_cons_self token' e htoken hfresh hrefused
      · have hgrown := hgrows _ _ _ hitems
        rw [hgoes] at h
        refine ih (fun items page hmem => haccepts items page (List.mem_cons_of_mem _ hmem))
          (fun cursor page hmem => hnexts cursor page (List.mem_cons_of_mem _ hmem)) (fun t ht => ?_) (by omega) h
        rcases List.mem_cons.mp (hseen _ _ _ hgoes ht) with rfl | ht
        · exact ⟨pages, hpages, Nat.le_refl _⟩
        · obtain ⟨pages', hpages', hlength⟩ := hold t ht
          exact ⟨pages', hpages', Nat.le_of_succ_le hlength⟩

/-- **A listing by token** is complete or fails. -/
theorem TokenPages.complete {request : τ → Except ε (TokenPage τ γ)} {first : τ}
    {pages : List (TokenPage τ γ)} (hpages : TokenPages request first first pages)
    {next : τ × List τ → TokenPage τ γ → Except ε (Option (τ × List τ))} (hnext : Follows first next)
    (hkeep : ∀ entry, (keep entry).isOk → itemOf keep entry ≠ none)
    {accept : List α → List γ → Except ε (List α)} {limit : Nat} (haccept : Accepts accept keep limit)
    (renew : Nat → Except ε PUnit) {fuel : Nat} (hfuel : pages.length ≤ fuel) :
    Ensures (readPages accept TokenPage.entries next renew (fun cursor => request cursor.1) fuel 0
        (first, []) [])
      (FoundAll keep (fun _ => true) (pages.flatMap (·.entries))) := by
  obtain ⟨read, ended, hreads, hlen, hall⟩ := hpages.reads hnext []
  intro found hfound
  obtain ⟨⟨hended, _⟩, items, rfl, added, hadded, rfl, _⟩ := (readPages_eq_ok haccept hreads
    TokenPage.entries renew fuel 0 [] (Nat.le_trans hlen hfuel) (Nat.zero_le _) found).mp hfound
  rw [hall hended] at hadded
  obtain ⟨hok, hitems⟩ := collect_eq_ok.mp hadded
  refine ⟨_, rfl, ?_⟩
  have hlists : Lists keep (fun _ => true) (pages.flatMap (·.entries) ++ []) _ :=
    (lists_filterMap_iff fun _ _ => rfl).mpr
      ⟨fun entry hentry _ => hkeep entry (hok entry hentry), nofun⟩
  rwa [hitems, List.append_nil] at hlists

end Dayfinch.Library
