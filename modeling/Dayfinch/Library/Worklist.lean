/-
# Dayfinch.Library.Worklist -- everything that can be reached, list by list

A client knows some first entries of a graph, and can ask for the children of a node. It keeps what it has found,
a queue of the nodes it still has to ask about and the nodes it has asked about. An entry is read (`read`), which
may fail; an item that is new is found, and queued if it says that it has children (`hasMore`). More than `maximum`
items are too many. `discover` is that loop, with the nodes asked about beside its outcome, and with a bound of its
own on the rounds.

Every item that is found was queued at most once, so the rounds are bounded by what may be found
(`discover_ne_none`), no node is asked about twice (`discover_asked`), and what is found in the end is all that can
be reached (`discover_found`), as long as an item that says it has no children has none.
-/
import Dayfinch.Library.Outcome
import Mathlib.Data.List.Nodup

namespace Dayfinch.Library

universe u v

variable {ε : Type u} {α γ κ : Type v}

/-! ## The loop -/

/-- What is found so far, in the order it was found, the queue and the nodes asked about. -/
structure Discovery (α κ : Type v) where
  found : List α
  pending : List κ
  examined : List κ

/-- How entries are read, and when there are too many items. -/
structure Reading (ε : Type u) (γ α κ : Type v) where
  read : γ → Except ε α
  key : α → κ
  hasMore : α → Bool
  maximum : Nat
  tooMany : ε

namespace Discovery

variable (rules : Reading ε γ α κ)

/-- The item is found, and queued where it has children. -/
def push (d : Discovery α κ) (item : α) : Discovery α κ :=
  { d with
    found := d.found ++ [item]
    pending := if rules.hasMore item then d.pending ++ [rules.key item] else d.pending }

variable [DecidableEq κ]

/-- An entry of a list of children. -/
def add (d : Discovery α κ) (entry : γ) : Except ε (Discovery α κ) := do
  let item ← rules.read entry
  if rules.key item ∈ d.found.map rules.key then return d
  else if rules.maximum < d.found.length + 1 then .error rules.tooMany
  else return d.push rules item

/-- A list of children. -/
def addAll (d : Discovery α κ) (entries : List γ) : Except ε (Discovery α κ) :=
  entries.foldlM (add rules) d

/-- Asks about one node of the queue after another, `fuel` rounds at most; the nodes asked about, and the outcome.
The answer `none` is that of an exhausted bound. -/
def discover (children : κ → Except ε (Option (List γ))) :
    Nat → Discovery α κ → List κ × Except ε (Option (List α))
  | 0, _ => ([], .ok none)
  | fuel + 1, d =>
      match d.pending with
      | [] => ([], .ok (some d.found))
      | node :: pending =>
          if node ∈ d.examined then discover children fuel { d with pending }
          else
            match children node with
            | .error e => ([node], .error e)
            | .ok none => ([node], .ok none)
            | .ok (some entries) =>
                match addAll rules { d with pending, examined := node :: d.examined } entries with
                | .error e => ([node], .error e)
                | .ok d' => (node :: (discover children fuel d').1, (discover children fuel d').2)

end Discovery

/-! ## The graph -/

/-- The entries of the graph: the first ones, and the children of each node. -/
structure EntryGraph (γ κ : Type v) where
  roots : List γ
  children : κ → List γ
  nodeOf : γ → κ

/-- A node that is reached from the first entries. -/
inductive EntryGraph.Reachable (g : EntryGraph γ κ) : κ → Prop
  | root {entry : γ} : entry ∈ g.roots → g.Reachable (g.nodeOf entry)
  | child {node : κ} {entry : γ} : g.Reachable node → entry ∈ g.children node → g.Reachable (g.nodeOf entry)

/-- The entry is in one of the lists. -/
def EntryGraph.Listed (g : EntryGraph γ κ) (entry : γ) : Prop :=
  entry ∈ g.roots ∨ ∃ node, entry ∈ g.children node

/-- The reading names the nodes as the graph does, and an item without children has none. -/
structure Reading.Fits (rules : Reading ε γ α κ) (g : EntryGraph γ κ) : Prop where
  key_eq : ∀ entry item, rules.read entry = .ok item → rules.key item = g.nodeOf entry
  complete : ∀ entry item, g.Listed entry → rules.read entry = .ok item → rules.hasMore item = false →
    g.children (rules.key item) = []

/-! ## What the loop keeps -/

namespace Discovery

variable {rules : Reading ε γ α κ} {g : EntryGraph γ κ}

/-- The nodes found. -/
def nodes (rules : Reading ε γ α κ) (d : Discovery α κ) : List κ := d.found.map rules.key

/-- What is found can be reached, once, and is queued or examined where it has children. -/
structure Sound (rules : Reading ε γ α κ) (g : EntryGraph γ κ) (d : Discovery α κ) : Prop where
  nodup : (d.nodes rules).Nodup
  reachable : ∀ item ∈ d.found, g.Reachable (rules.key item)
  listed : ∀ item ∈ d.found, ∃ entry, g.Listed entry ∧ rules.read entry = .ok item
  queued : ∀ item ∈ d.found, rules.hasMore item = true →
    rules.key item ∈ d.examined ∨ rules.key item ∈ d.pending
  pending : ∀ node ∈ d.pending, g.Reachable node
  few : d.found.length ≤ rules.maximum

/-- How far the loop is from its end: each round takes a node from the queue, and each item that enters the queue
is one fewer that may be found. -/
def measure (rules : Reading ε γ α κ) (d : Discovery α κ) : Nat :=
  d.pending.length + (rules.maximum - d.found.length)

/-- What an entry adds. -/
structure Extends (rules : Reading ε γ α κ) (g : EntryGraph γ κ) (d d' : Discovery α κ) : Prop where
  examined_eq : d'.examined = d.examined
  nodes_subset : d.nodes rules ⊆ d'.nodes rules
  sound : d.Sound rules g → d'.Sound rules g
  few : d.found.length ≤ rules.maximum → d'.found.length ≤ rules.maximum
  measure_le : d.found.length ≤ rules.maximum → d'.measure rules ≤ d.measure rules

theorem Extends.refl (d : Discovery α κ) : Extends rules g d d :=
  ⟨rfl, fun _ h => h, id, id, fun _ => Nat.le_refl _⟩

theorem push_sound {d : Discovery α κ} {entry : γ} {item : α} (hnew : rules.key item ∉ d.nodes rules)
    (hread : rules.read entry = .ok item) (hlisted : g.Listed entry) (hreachable : g.Reachable (rules.key item))
    (hfew : d.found.length < rules.maximum) (h : d.Sound rules g) : (d.push rules item).Sound rules g where
  nodup := by
    simp only [nodes, push, List.map_append, List.map_singleton]
    refine List.Nodup.append h.nodup (List.nodup_singleton _) ?_
    simpa [nodes, List.disjoint_singleton] using hnew
  reachable := by
    intro x hx
    rcases List.mem_append.mp hx with hx | hx
    · exact h.reachable x hx
    · rw [List.mem_singleton.mp hx]
      exact hreachable
  listed := by
    intro x hx
    rcases List.mem_append.mp hx with hx | hx
    · exact h.listed x hx
    · rw [List.mem_singleton.mp hx]
      exact ⟨entry, hlisted, hread⟩
  queued := by
    intro x hx hmore
    rcases List.mem_append.mp hx with hx | hx
    · refine (h.queued x hx hmore).imp_right fun hpending => ?_
      unfold push
      dsimp only
      split
      · exact List.mem_append_left _ hpending
      · exact hpending
    · obtain rfl := List.mem_singleton.mp hx
      right
      simp [push, hmore]
  pending := by
    intro node hnode
    unfold push at hnode
    dsimp only at hnode
    split at hnode
    · rcases List.mem_append.mp hnode with hnode | hnode
      · exact h.pending node hnode
      · rw [List.mem_singleton.mp hnode]
        exact hreachable
    · exact h.pending node hnode
  few := by
    simp only [push, List.length_append, List.length_singleton]
    omega

theorem Extends.trans {d d' d'' : Discovery α κ} (h : Extends rules g d d') (h' : Extends rules g d' d'') :
    Extends rules g d d'' where
  examined_eq := h'.examined_eq.trans h.examined_eq
  nodes_subset := List.Subset.trans h.nodes_subset h'.nodes_subset
  sound := h'.sound ∘ h.sound
  few := h'.few ∘ h.few
  measure_le hle := Nat.le_trans (h'.measure_le (h.few hle)) (h.measure_le hle)

/-- All first entries are found, and so are the children of the nodes examined. -/
structure Closed (rules : Reading ε γ α κ) (g : EntryGraph γ κ) (d : Discovery α κ) : Prop where
  sound : d.Sound rules g
  roots : ∀ entry ∈ g.roots, g.nodeOf entry ∈ d.nodes rules
  children : ∀ node ∈ d.examined, ∀ entry ∈ g.children node, g.nodeOf entry ∈ d.nodes rules

/-- The node at the head of the queue was examined before. -/
theorem Closed.skip {d : Discovery α κ} (h : d.Closed rules g) {node : κ} {pending : List κ}
    (hpending : d.pending = node :: pending) (hexamined : node ∈ d.examined) :
    Closed rules g { d with pending } where
  sound :=
    { h.sound with
      queued := by
        intro item hitem hmore
        rcases h.sound.queued item hitem hmore with hdone | hqueued
        · exact .inl hdone
        · rw [hpending] at hqueued
          rcases List.mem_cons.mp hqueued with hnode | hqueued
          · exact .inl (hnode ▸ hexamined)
          · exact .inr hqueued
      pending := fun n hn => h.sound.pending n (hpending ▸ List.mem_cons_of_mem node hn) }
  roots := h.roots
  children := h.children

theorem Sound.examine {d : Discovery α κ} (h : d.Sound rules g) {node : κ} {pending : List κ}
    (hpending : d.pending = node :: pending) :
    Sound rules g { d with pending, examined := node :: d.examined } :=
  { h with
    queued := by
      intro item hitem hmore
      rcases h.queued item hitem hmore with hdone | hqueued
      · exact .inl (List.mem_cons_of_mem node hdone)
      · rw [hpending] at hqueued
        rcases List.mem_cons.mp hqueued with hnode | hqueued
        · exact .inl (hnode ▸ List.mem_cons_self)
        · exact .inr hqueued
    pending := fun n hn => h.pending n (hpending ▸ List.mem_cons_of_mem node hn) }

/-- With an empty queue everything that can be reached is found. -/
theorem Closed.found {d : Discovery α κ} (hfits : rules.Fits g) (h : d.Closed rules g) (hpending : d.pending = [])
    (node : κ) : node ∈ d.nodes rules ↔ g.Reachable node := by
  constructor
  · intro hnode
    obtain ⟨item, hitem, rfl⟩ := List.mem_map.mp hnode
    exact h.sound.reachable item hitem
  · intro hreachable
    induction hreachable with
    | root hentry => exact h.roots _ hentry
    | @child node entry _ hentry ih =>
      obtain ⟨item, hitem, rfl⟩ := List.mem_map.mp ih
      cases hmore : rules.hasMore item with
      | true =>
        rcases h.sound.queued item hitem hmore with hexamined | hqueued
        · exact h.children _ hexamined entry hentry
        · rw [hpending] at hqueued
          cases hqueued
      | false =>
        obtain ⟨listed, hlisted, hread⟩ := h.sound.listed item hitem
        rw [hfits.complete listed item hlisted hread hmore] at hentry
        cases hentry

/-! ## Entries and lists of entries -/

variable [DecidableEq κ]

/-- **One entry.** -/
theorem add_spec (hfits : rules.Fits g) {d d' : Discovery α κ} {entry : γ} (hlisted : g.Listed entry)
    (hreachable : g.Reachable (g.nodeOf entry)) (h : add rules d entry = .ok d') :
    Extends rules g d d' ∧ g.nodeOf entry ∈ d'.nodes rules := by
  obtain ⟨item, hread, h⟩ := bind_eq_ok.mp h
  have hkey := hfits.key_eq entry item hread
  split at h
  next hold =>
    obtain rfl := Except.ok.inj h
    exact ⟨Extends.refl d, by rwa [← hkey]⟩
  next hnew =>
    split at h
    next => cases h
    next hfew =>
      obtain rfl := Except.ok.inj h
      rw [← hkey] at hreachable
      refine ⟨⟨rfl, ?_, push_sound hnew hread hlisted hreachable (by omega), ?_, ?_⟩, ?_⟩
      · simp [nodes, push]
      · intro _
        simp only [push, List.length_append, List.length_singleton]
        omega
      · intro _
        simp only [measure, push, List.length_append, List.length_singleton]
        split
        · simp only [List.length_append, List.length_singleton]
          omega
        · omega
      · simp [nodes, push, hkey]

/-- **A list of entries.** -/
theorem addAll_spec (hfits : rules.Fits g) {entries : List γ} {d d' : Discovery α κ}
    (hlisted : ∀ entry ∈ entries, g.Listed entry ∧ g.Reachable (g.nodeOf entry))
    (h : addAll rules d entries = .ok d') :
    Extends rules g d d' ∧ ∀ entry ∈ entries, g.nodeOf entry ∈ d'.nodes rules := by
  unfold addAll at h
  induction entries generalizing d with
  | nil =>
    obtain rfl := Except.ok.inj h
    exact ⟨Extends.refl d, by simp⟩
  | cons entry entries ih =>
    rw [List.foldlM_cons] at h
    obtain ⟨d₁, hadd, hrest⟩ := bind_eq_ok.mp h
    obtain ⟨hentry, hreachable⟩ := hlisted entry List.mem_cons_self
    obtain ⟨hextends, hmem⟩ := add_spec hfits hentry hreachable hadd
    obtain ⟨hextends', hall⟩ := ih (fun e he => hlisted e (List.mem_cons_of_mem entry he)) hrest
    refine ⟨hextends.trans hextends', ?_⟩
    intro e he
    rcases List.mem_cons.mp he with rfl | he
    · exact hextends'.nodes_subset hmem
    · exact hall e he

theorem addAll_examined {entries : List γ} {d d' : Discovery α κ} (h : addAll rules d entries = .ok d') :
    d'.examined = d.examined := by
  unfold addAll at h
  induction entries generalizing d with
  | nil =>
    obtain rfl := Except.ok.inj h
    rfl
  | cons entry entries ih =>
    rw [List.foldlM_cons] at h
    obtain ⟨d₁, hadd, hrest⟩ := bind_eq_ok.mp h
    refine (ih hrest).trans ?_
    obtain ⟨item, -, hadd⟩ := bind_eq_ok.mp hadd
    split at hadd
    next =>
      obtain rfl := Except.ok.inj hadd
      rfl
    next =>
      split at hadd
      next => cases hadd
      next =>
        obtain rfl := Except.ok.inj hadd
        rfl

/-- More nodes can be reached than may be found. -/
def TooMany (rules : Reading ε γ α κ) (g : EntryGraph γ κ) : Prop :=
  ∃ nodes : List κ, nodes.Nodup ∧ rules.maximum < nodes.length ∧ ∀ node ∈ nodes, g.Reachable node

/-- What a list of entries fails with. -/
theorem addAll_error (hfits : rules.Fits g) {P : ε → Prop} (htooMany : TooMany rules g → P rules.tooMany)
    {entries : List γ} (hread : ∀ entry ∈ entries, ∀ e, rules.read entry = .error e → P e)
    (hlisted : ∀ entry ∈ entries, g.Listed entry ∧ g.Reachable (g.nodeOf entry)) {d : Discovery α κ}
    (hsound : d.Sound rules g) {e : ε} (h : addAll rules d entries = .error e) : P e := by
  unfold addAll at h
  induction entries generalizing d with
  | nil => cases h
  | cons entry entries ih =>
    obtain ⟨hentry, hreachable⟩ := hlisted entry List.mem_cons_self
    rw [List.foldlM_cons] at h
    rcases bind_eq_error.mp h with hadd | ⟨d₁, hadd, hrest⟩
    · rcases bind_eq_error.mp hadd with hfails | ⟨item, hitem, hadd⟩
      · exact hread entry List.mem_cons_self e hfails
      · rw [← hfits.key_eq entry item hitem] at hreachable
        split at hadd
        next => cases hadd
        next hnew =>
          split at hadd
          next hmany =>
            cases hadd
            refine htooMany ⟨rules.key item :: d.nodes rules, List.nodup_cons.mpr ⟨hnew, hsound.nodup⟩, ?_, ?_⟩
            · simpa [nodes] using hmany
            · refine List.forall_mem_cons.mpr ⟨hreachable, fun node hnode => ?_⟩
              obtain ⟨found, hfound, rfl⟩ := List.mem_map.mp hnode
              exact hsound.reachable found hfound
          next => cases hadd
    · refine ih (fun entry hmem => hread entry (List.mem_cons_of_mem _ hmem))
        (fun entry hmem => hlisted entry (List.mem_cons_of_mem _ hmem)) ?_ hrest
      exact (add_spec hfits hentry hreachable hadd).1.sound hsound

/-- The node at the head of the queue is examined. -/
theorem Closed.examine {d d' : Discovery α κ} (hfits : rules.Fits g) (h : d.Closed rules g) {node : κ}
    {pending : List κ} (hpending : d.pending = node :: pending)
    (hadd : addAll rules { d with pending, examined := node :: d.examined } (g.children node) = .ok d') :
    d'.Closed rules g ∧ d'.examined = node :: d.examined ∧ d'.measure rules < d.measure rules := by
  have hnode : g.Reachable node := h.sound.pending node (hpending ▸ List.mem_cons_self)
  have hsound := h.sound.examine hpending
  obtain ⟨hextends, hall⟩ := addAll_spec hfits
    (fun entry hentry => ⟨.inr ⟨node, hentry⟩, .child hnode hentry⟩) hadd
  refine ⟨⟨hextends.sound hsound, fun entry hentry => hextends.nodes_subset (h.roots entry hentry), ?_⟩,
    hextends.examined_eq, ?_⟩
  · intro n hn entry hentry
    rw [hextends.examined_eq] at hn
    rcases List.mem_cons.mp hn with rfl | hn
    · exact hall entry hentry
    · exact hextends.nodes_subset (h.children n hn entry hentry)
  · have hle := hextends.measure_le h.sound.few
    simp only [measure, hpending, List.length_cons] at hle ⊢
    omega

/-! ## The loop -/

variable {children : κ → Except ε (Option (List γ))}

/-- What the loop finds in the end, if it comes to it. -/
structure Discovered (rules : Reading ε γ α κ) (g : EntryGraph γ κ) (found : List α) : Prop where
  nodup : (found.map rules.key).Nodup
  reachable : ∀ node, node ∈ found.map rules.key ↔ g.Reachable node
  listed : ∀ item ∈ found, ∃ entry, g.Listed entry ∧ rules.read entry = .ok item

/-- **The loop finds everything.** -/
theorem discover_found (hfits : rules.Fits g)
    (hchildren : ∀ node, g.Reachable node → ∀ entries, children node = .ok (some entries) →
      entries = g.children node)
    {fuel : Nat} {d : Discovery α κ} (h : d.Closed rules g) {found : List α}
    (hfound : (discover rules children fuel d).2 = .ok (some found)) : Discovered rules g found := by
  induction fuel generalizing d with
  | zero => cases hfound
  | succ fuel ih =>
    unfold discover at hfound
    split at hfound
    next hpending =>
      obtain rfl := Option.some.inj (Except.ok.inj hfound)
      exact ⟨h.sound.nodup, h.found hfits hpending, h.sound.listed⟩
    next node pending hpending =>
      split at hfound
      next hexamined => exact ih (h.skip hpending hexamined) hfound
      next =>
        split at hfound
        next => cases hfound
        next => cases hfound
        next entries hentries =>
          split at hfound
          next => cases hfound
          next d' hadd =>
            rw [hchildren node (h.sound.pending node (hpending ▸ List.mem_cons_self)) entries hentries] at hadd
            exact ih (h.examine hfits hpending hadd).1 hfound

/-- **No node is asked about twice.** -/
theorem discover_asked (fuel : Nat) (d : Discovery α κ) :
    (discover rules children fuel d).1.Nodup ∧ ∀ node ∈ (discover rules children fuel d).1, node ∉ d.examined := by
  induction fuel generalizing d with
  | zero => simp [discover]
  | succ fuel ih =>
    unfold discover
    split
    next => simp
    next node pending hpending =>
      split
      next => exact ih _
      next hnew =>
        split
        next => simpa using hnew
        next => simpa using hnew
        next entries hentries =>
          split
          next => simpa using hnew
          next d' hadd =>
            obtain ⟨hnodup, hfresh⟩ := ih d'
            rw [addAll_examined hadd] at hfresh
            refine ⟨List.nodup_cons.mpr ⟨fun hmem => hfresh node hmem List.mem_cons_self, hnodup⟩, ?_⟩
            intro n hn
            rcases List.mem_cons.mp hn with rfl | hn
            · exact hnew
            · exact fun hmem => hfresh n hn (List.mem_cons_of_mem node hmem)

/-- **The loop ends.** -/
theorem discover_ne_none (hfits : rules.Fits g)
    (hchildren : ∀ node, g.Reachable node → ∀ entries, children node = .ok (some entries) →
      entries = g.children node)
    (hends : ∀ node, g.Reachable node → children node ≠ .ok none)
    {fuel : Nat} {d : Discovery α κ} (h : d.Closed rules g) (hfuel : d.measure rules < fuel) :
    (discover rules children fuel d).2 ≠ .ok none := by
  induction fuel generalizing d with
  | zero => cases hfuel
  | succ fuel ih =>
    unfold discover
    split
    next => simp
    next node pending hpending =>
      split
      next hexamined =>
        refine ih (h.skip hpending hexamined) ?_
        simp only [measure, hpending, List.length_cons] at hfuel ⊢
        omega
      next =>
        split
        next => simp
        next hnone => exact absurd hnone (hends node (h.sound.pending node (hpending ▸ List.mem_cons_self)))
        next entries hentries =>
          split
          next => simp
          next d' hadd =>
            rw [hchildren node (h.sound.pending node (hpending ▸ List.mem_cons_self)) entries hentries] at hadd
            obtain ⟨hclosed, -, hless⟩ := h.examine hfits hpending hadd
            exact ih hclosed (by omega)

/-- **What the loop fails with**: too many nodes, an entry that cannot be read, or a list that fails. -/
theorem discover_error (hfits : rules.Fits g) {P : ε → Prop} (htooMany : TooMany rules g → P rules.tooMany)
    (hread : ∀ node, g.Reachable node → ∀ entry ∈ g.children node, ∀ e, rules.read entry = .error e → P e)
    (hfails : ∀ node, g.Reachable node → ∀ e, children node = .error e → P e)
    (hchildren : ∀ node, g.Reachable node → ∀ entries, children node = .ok (some entries) →
      entries = g.children node)
    {fuel : Nat} {d : Discovery α κ} (h : d.Closed rules g) {e : ε}
    (herror : (discover rules children fuel d).2 = .error e) : P e := by
  induction fuel generalizing d with
  | zero => cases herror
  | succ fuel ih =>
    unfold discover at herror
    split at herror
    next => cases herror
    next node pending hpending =>
      have hnode : g.Reachable node := h.sound.pending node (hpending ▸ List.mem_cons_self)
      split at herror
      next hexamined => exact ih (h.skip hpending hexamined) herror
      next =>
        split at herror
        next e' hlist =>
          cases herror
          exact hfails node hnode e hlist
        next => cases herror
        next entries hentries =>
          rw [hchildren node hnode entries hentries] at herror
          split at herror
          next e' hadd =>
            cases herror
            exact addAll_error hfits htooMany (hread node hnode)
              (fun entry hentry => ⟨.inr ⟨node, hentry⟩, .child hnode hentry⟩) (h.sound.examine hpending) hadd
          next d' hadd => exact ih (h.examine hfits hpending hadd).1 herror

end Discovery

end Dayfinch.Library
