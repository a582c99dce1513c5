/-
# Dayfinch.Screenshots.Uploads -- each call of an upload keeps the invariant

An upload that saves holds a key that nobody has; until it inserts its row or deletes the object, no row has
that key and no other upload holds it. That is why neither a retry nor its clean-up can touch an object that
a row names.
-/
import Dayfinch.Screenshots.Invariant

namespace Dayfinch

open Library

namespace ScreenshotStore

/-! ## Uploads that move -/

/-- The `k`-th upload moves to a phase, and nobody else has another object in hand. -/
theorem holding_moveCallOn {s : ScreenshotStore} {k : Nat} {relied : Option ActivityRow} {phase : UploadPhase}
    {i : Nat} {key : ScreenshotKey} {data : List UInt8}
    (h : (s.moveCallOn k relied phase).Holding i key data) :
    (i = k ∧ phase.holds = some key ∧ ∃ c, s.calls[k]? = some c ∧ c.request.data = data) ∨
      (i ≠ k ∧ s.Holding i key data) := by
  obtain ⟨c, hc, hholds, hdata⟩ := h
  have hget : ((s.calls.modify k fun c => { c with phase := phase, relied := relied })[i]?) = some c := hc
  rw [List.getElem?_modify] at hget
  obtain ⟨d, hd, rfl⟩ := Option.map_eq_some_iff.mp hget
  by_cases hk : k = i
  · subst hk
    rw [if_pos rfl] at hholds hdata
    exact .inl ⟨rfl, hholds, d, hd, hdata⟩
  · rw [if_neg hk] at hholds hdata
    exact .inr ⟨fun heq => hk heq.symm, d, hd, hholds, hdata⟩

theorem Holding.moveCallOn {s : ScreenshotStore} {k i : Nat} {key : ScreenshotKey} {data : List UInt8}
    (h : s.Holding i key data) (hne : i ≠ k) (relied : Option ActivityRow) (phase : UploadPhase) :
    (s.moveCallOn k relied phase).Holding i key data := by
  obtain ⟨c, hc, hholds, hdata⟩ := h
  refine ⟨c, ?_, hholds, hdata⟩
  exact getElem?_modify_of_ne hc hne

/-- An upload moves and keeps the row that its answer is about. -/
theorem moveCall_eq {s : ScreenshotStore} {k : Nat} {c : UploadCall} (hc : s.calls[k]? = some c)
    (phase : UploadPhase) : s.moveCall k phase = s.moveCallOn k c.relied phase := by
  unfold moveCall moveCallOn
  congr 1
  refine List.ext_getElem? fun i => ?_
  rw [List.getElem?_modify, List.getElem?_modify]
  by_cases hk : k = i
  · subst hk
    simp [hc]
  · simp [hk]

section

variable {s : ScreenshotStore} {k : Nat} {c : UploadCall} {relied : Option ActivityRow} {phase : UploadPhase}

/-- What an upload has in hand is what it had: the object of another, or its own as before. -/
theorem holding_same (hc : s.calls[k]? = some c)
    (hholds : ∀ key, phase.holds = some key → c.phase.holds = some key) {i : Nat} {key : ScreenshotKey}
    {data : List UInt8} (h : (s.moveCallOn k relied phase).Holding i key data) : s.Holding i key data := by
  rcases holding_moveCallOn h with ⟨rfl, hkey, d, hd, hdata⟩ | ⟨_, hold⟩
  · obtain rfl : c = d := Option.some.inj (hc.symm.trans hd)
    exact ⟨c, hc, hholds key hkey, hdata⟩
  · exact hold

theorem Keyed.moveCallOn (h : s.Keyed) (hc : s.calls[k]? = some c)
    (hholds : ∀ key, phase.holds = some key → c.phase.holds = some key) :
    (s.moveCallOn k relied phase).Keyed where
  ids := h.ids
  determined := h.determined
  suffixes := h.suffixes
  stored := h.stored
  held := fun i key data hheld => h.held i key data (holding_same hc hholds hheld)
  distinct := fun i j key data data' hi hj =>
    h.distinct i j key data data' (holding_same hc hholds hi) (holding_same hc hholds hj)

/-- The upload keeps what it has in hand. -/
theorem Kept.moveCallOn (h : s.Kept) (hc : s.calls[k]? = some c) (hholds : phase.holds = c.phase.holds) :
    (s.moveCallOn k relied phase).Kept where
  saved := fun i key data hheld =>
    h.saved i key data (holding_same hc (fun _ hkey => hholds ▸ hkey) hheld)
  objects := h.objects
  referenced := by
    intro o ho
    rcases h.referenced o ho with hrow | ⟨i, data, hheld⟩
    · exact .inl hrow
    · refine .inr ⟨i, data, ?_⟩
      by_cases hi : i = k
      · subst hi
        obtain ⟨d, hd, hkey, hdata⟩ := hheld
        obtain rfl : c = d := Option.some.inj (hc.symm.trans hd)
        refine ⟨{ c with phase := phase, relied := relied }, ?_, hholds.trans hkey, hdata⟩
        exact getElem?_modify_self hc
      · exact hheld.moveCallOn hi relied phase

/-- The upload answers about a row that is known, if it answers. -/
theorem Answering.moveCallOn (h : s.Answering) (hc : s.calls[k]? = some c)
    (hparsed : ∀ id ∈ phase.recordId, c.request.recordId = some id)
    (hrelied : phase.answers = true → ∃ row ∈ relied, some row.id = c.request.recordId ∧ row ∈ s.known) :
    (s.moveCallOn k relied phase).Answering where
  parsed := by
    intro d hd
    rcases mem_modify_cases hd with ⟨i, _, hi⟩ | ⟨e, he, rfl⟩
    · exact h.parsed d (List.mem_of_getElem? hi)
    · obtain rfl : c = e := Option.some.inj (hc.symm.trans he)
      exact hparsed
  relied := by
    intro d hd
    rcases mem_modify_cases hd with ⟨i, _, hi⟩ | ⟨e, he, rfl⟩
    · exact h.relied d (List.mem_of_getElem? hi)
    · obtain rfl : c = e := Option.some.inj (hc.symm.trans he)
      exact hrelied

/-- **An upload moves** without touching the table or the storage. -/
theorem Sound.moveCallOn (h : s.Sound) (hc : s.calls[k]? = some c) (hholds : phase.holds = c.phase.holds)
    (hparsed : ∀ id ∈ phase.recordId, c.request.recordId = some id)
    (hrelied : phase.answers = true → ∃ row ∈ relied, some row.id = c.request.recordId ∧ row ∈ s.known) :
    (s.moveCallOn k relied phase).Sound where
  keyed := h.keyed.moveCallOn hc fun _ hkey => hholds ▸ hkey
  answering := h.answering.moveCallOn hc hparsed hrelied
  kept := h.kept.moveCallOn hc hholds
  purging := ⟨h.purging.batches, h.purging.expired, h.purging.left, h.purging.gone⟩

/-- An upload moves to a phase in which it neither has an object in hand nor a row to answer about. -/
theorem Sound.moveCall (h : s.Sound) (hc : s.calls[k]? = some c) (hnone : c.phase.holds = none)
    (hholds : phase.holds = none) (hanswers : phase.answers = false)
    (hparsed : ∀ id ∈ phase.recordId, c.request.recordId = some id) : (s.moveCall k phase).Sound := by
  rw [moveCall_eq hc]
  exact h.moveCallOn hc (hholds.trans hnone.symm) hparsed fun hyes => absurd hyes (by simp [hanswers])

end

/-! ## Uploads that arrive, save, insert and clean up -/

section

variable {s : ScreenshotStore} {k : Nat} {c : UploadCall}

/-- An upload that has just arrived has nothing in hand. -/
theorem holding_request {r : UploadRequest} {i : Nat} {key : ScreenshotKey} {data : List UInt8} :
    ({ s with calls := s.calls ++ [{ request := r }] } : ScreenshotStore).Holding i key data ↔
      s.Holding i key data := by
  constructor
  · rintro ⟨c, hc, hkey, hdata⟩
    have hget : (s.calls ++ [{ request := r }])[i]? = some c := hc
    by_cases hi : i < s.calls.length
    · rw [List.getElem?_append_left hi] at hget
      exact ⟨c, hget, hkey, hdata⟩
    · rw [List.getElem?_append_right (by omega)] at hget
      obtain rfl := List.mem_singleton.mp (List.mem_of_getElem? hget)
      exact nomatch hkey
  · rintro ⟨c, hc, hkey, hdata⟩
    have hi : i < s.calls.length := (List.getElem?_eq_some_iff.mp hc).1
    exact ⟨c, (List.getElem?_append_left hi).trans hc, hkey, hdata⟩

/-- **A request arrives.** -/
theorem Sound.request (h : s.Sound) (r : UploadRequest) :
    ({ s with calls := s.calls ++ [{ request := r }] } : ScreenshotStore).Sound where
  keyed := {
    ids := h.keyed.ids
    determined := h.keyed.determined
    suffixes := h.keyed.suffixes
    stored := h.keyed.stored
    held := fun i key data hheld => h.keyed.held i key data (holding_request.mp hheld)
    distinct := fun i j key data data' hi hj =>
      h.keyed.distinct i j key data data' (holding_request.mp hi) (holding_request.mp hj) }
  answering := by
    refine ⟨fun c hc => ?_, fun c hc => ?_⟩
    · rcases List.mem_append.mp hc with hold | hnew
      · exact h.answering.parsed c hold
      · obtain rfl := List.mem_singleton.mp hnew
        exact fun id hid => nomatch hid
    · rcases List.mem_append.mp hc with hold | hnew
      · exact h.answering.relied c hold
      · obtain rfl := List.mem_singleton.mp hnew
        exact fun hyes => nomatch hyes
  kept := {
    saved := fun i key data hheld => h.kept.saved i key data (holding_request.mp hheld)
    objects := h.kept.objects
    referenced := fun o ho => (h.kept.referenced o ho).imp_right fun ⟨i, data, hheld⟩ =>
      ⟨i, data, holding_request.mpr hheld⟩ }
  purging := ⟨h.purging.batches, h.purging.expired, h.purging.left, h.purging.gone⟩

/-- The object of the `k`-th upload is the one that its phase names. -/
theorem Holding.key_eq (hc : s.calls[k]? = some c) {key key' : ScreenshotKey} {data : List UInt8}
    (h : s.Holding k key data) (hkey : c.phase.holds = some key') : key = key' := by
  obtain ⟨d, hd, hholds, _⟩ := h
  obtain rfl : c = d := Option.some.inj (hc.symm.trans hd)
  exact Option.some.inj (hholds.symm.trans hkey)

section

variable {id : Nat} {captured : Int} {key : ScreenshotKey}

/-- What is in hand after the `k`-th upload has saved: its object, and what the others had. -/
theorem holding_save (hc : s.calls[k]? = some c) {i : Nat} {key' : ScreenshotKey} {data : List UInt8}
    (h : ((s.storeObject key c.request.data).moveCallOn k c.relied (.addRecord id captured key)).Holding i key'
      data) :
    (i = k ∧ key' = key ∧ data = c.request.data) ∨ s.Holding i key' data := by
  rcases holding_moveCallOn h with ⟨hi, hholds, d, hd, hdata⟩ | ⟨_, hother⟩
  · obtain rfl : c = d := Option.some.inj (hc.symm.trans hd)
    exact .inl ⟨hi, (Option.some.inj hholds).symm, hdata.symm⟩
  · exact .inr hother

theorem Keyed.save (h : s.Keyed) (hc : s.calls[k]? = some c) (hkey : key.suffix = s.nextSuffix) :
    ((s.storeObject key c.request.data).moveCallOn k c.relied (.addRecord id captured key)).Keyed where
  ids := h.ids
  determined := h.determined
  suffixes := fun a ha => Nat.lt_succ_of_lt (h.suffixes a ha)
  stored := by
    intro o ho
    rcases List.mem_append.mp ho with hin | hnew
    · exact Nat.lt_succ_of_lt (h.stored o hin)
    · obtain rfl := List.mem_singleton.mp hnew
      exact Nat.lt_succ_of_le (Nat.le_of_eq hkey)
  held := by
    intro i key' data hheld
    rcases holding_save hc hheld with ⟨_, rfl, _⟩ | hold
    · refine ⟨Nat.lt_succ_of_le (Nat.le_of_eq hkey), fun a ha heq => ?_⟩
      have hlt := h.suffixes a ha
      rw [heq, hkey] at hlt
      exact Nat.lt_irrefl _ hlt
    · obtain ⟨hlt, hne⟩ := h.held i key' data hold
      exact ⟨Nat.lt_succ_of_lt hlt, hne⟩
  distinct := by
    -- the new key is nobody else's: its suffix is new
    have hnew : ∀ i data, ¬ s.Holding i key data := by
      intro i data hheld
      have hlt := (h.held i key data hheld).1
      rw [hkey] at hlt
      exact Nat.lt_irrefl _ hlt
    intro i j key' data data' hi hj
    rcases holding_save hc hi with ⟨rfl, rfl, _⟩ | hi'
    · rcases holding_save hc hj with ⟨rfl, _, _⟩ | hj'
      · rfl
      · exact absurd hj' (hnew j data')
    · rcases holding_save hc hj with ⟨_, rfl, _⟩ | hj'
      · exact absurd hi' (hnew i data)
      · exact h.distinct i j key' data data' hi' hj'

theorem Kept.save (h : s.Kept) (hkeyed : s.Keyed) (hc : s.calls[k]? = some c) (hnone : c.phase.holds = none)
    (hkey : key.suffix = s.nextSuffix) :
    ((s.storeObject key c.request.data).moveCallOn k c.relied (.addRecord id captured key)).Kept where
  saved := by
    have hfresh : ∀ o ∈ s.objects, o.1 ≠ key := by
      intro o ho heq
      have hlt := hkeyed.stored o ho
      rw [heq, hkey] at hlt
      exact Nat.lt_irrefl _ hlt
    intro i key' data hheld
    rcases holding_save hc hheld with ⟨_, rfl, rfl⟩ | hold
    · exact object_storeObject_self s hfresh
    · exact object_storeObject s (h.saved i key' data hold) key
  objects := fun row hrow => (h.objects row hrow).imp_right fun hrest =>
    hrest.imp_right fun hobject => object_storeObject s hobject key
  referenced := by
    intro o ho
    rcases List.mem_append.mp ho with hin | hnew
    · refine (h.referenced o hin).imp_right fun ⟨i, data, hheld⟩ => ⟨i, data, ?_⟩
      refine Holding.moveCallOn (s := s.storeObject key c.request.data) hheld (fun hi => ?_) c.relied _
      subst hi
      obtain ⟨d, hd, hholds, _⟩ := hheld
      obtain rfl : c = d := Option.some.inj (hc.symm.trans hd)
      exact nomatch hnone.symm.trans hholds
    · obtain rfl := List.mem_singleton.mp hnew
      refine .inr ⟨k, c.request.data, { c with phase := .addRecord id captured key }, ?_, rfl, rfl⟩
      exact getElem?_modify_self hc

theorem Purging.storeObject (h : s.Purging) (hkeyed : s.Keyed) {data : List UInt8}
    (hkey : key.suffix = s.nextSuffix) : (s.storeObject key data).Purging where
  batches := h.batches
  expired := h.expired
  left := h.left
  gone := by
    intro p hp r hr o ho
    rcases List.mem_append.mp ho with hin | hnew
    · exact h.gone p hp r hr o hin
    · obtain rfl := List.mem_singleton.mp hnew
      rintro rfl
      have hlt := hkeyed.suffixes r (h.batches p hp r (removes_batch hr))
      rw [hkey] at hlt
      exact Nat.lt_irrefl _ hlt

/-- **An upload saves its object**, under a key that is new. -/
theorem Sound.save (h : s.Sound) (hc : s.calls[k]? = some c) (hnone : c.phase.holds = none)
    (hid : c.request.recordId = some id) (hkey : key.suffix = s.nextSuffix) :
    ((s.storeObject key c.request.data).moveCall k (.addRecord id captured key)).Sound := by
  have hcalls : (s.storeObject key c.request.data).calls[k]? = some c := hc
  rw [moveCall_eq hcalls]
  refine ⟨h.keyed.save hc hkey, ?_, h.kept.save h.keyed hc hnone hkey,
    ⟨h.purging.batches, h.purging.expired, h.purging.left, (h.purging.storeObject h.keyed hkey).gone⟩⟩
  have hrest : (s.storeObject key c.request.data).Answering := ⟨h.answering.parsed, h.answering.relied⟩
  refine hrest.moveCallOn hcalls (fun id' hid' => ?_) fun hyes => nomatch hyes
  obtain rfl := Option.some.inj hid'
  exact hid

end

section

variable {id : Nat} {captured : Int} {key : ScreenshotKey} {row : ActivityRow}

/-- What is in hand when the `k`-th upload is done with its object: what the others had. -/
theorem holding_settled {relied : Option ActivityRow} {phase : UploadPhase} (hnone : phase.holds = none) {i : Nat}
    {key' : ScreenshotKey} {data : List UInt8} (h : (s.moveCallOn k relied phase).Holding i key' data) :
    i ≠ k ∧ s.Holding i key' data := by
  rcases holding_moveCallOn h with ⟨_, hholds, _⟩ | hother
  · exact nomatch hnone.symm.trans hholds
  · exact hother

theorem mem_known_insertRow {a : ActivityRow} : a ∈ (s.insertRow row).known ↔ a ∈ s.known ∨ a = row := by
  simp only [known, insertRow, List.mem_append, List.mem_singleton]
  tauto

/-- The rows that are known stay known apart from each other when the row of an upload joins them. -/
theorem Keyed.insert (h : s.Keyed) (hheld : s.Holding k row.screenshotPath row.upload)
    (hnew : ∀ r ∈ s.rows, r.id ≠ row.id) :
    ((s.insertRow row).moveCallOn k (some row) (.touchDevice true)).Keyed where
  ids := h.ids.append_fresh hnew
  determined := by
    have hpath := (h.held k _ _ hheld).2
    intro a ha b hb heq
    rcases mem_known_insertRow.mp ha with ha' | rfl
    · rcases mem_known_insertRow.mp hb with hb' | rfl
      · exact h.determined a ha' b hb' heq
      · exact absurd heq (hpath a ha')
    · rcases mem_known_insertRow.mp hb with hb' | rfl
      · exact absurd heq.symm (hpath b hb')
      · rfl
  suffixes := by
    intro a ha
    rcases mem_known_insertRow.mp ha with ha | rfl
    · exact h.suffixes a ha
    · exact (h.held k _ _ hheld).1
  stored := h.stored
  held := by
    intro i key data hi
    obtain ⟨hne, hold⟩ := holding_settled (s := s.insertRow row) rfl hi
    refine ⟨(h.held i key data hold).1, fun a ha heq => ?_⟩
    rcases mem_known_insertRow.mp ha with ha | rfl
    · exact (h.held i key data hold).2 a ha heq
    · exact hne (h.distinct i k key data _ hold (heq ▸ hheld))
  distinct := fun i j key data data' hi hj =>
    h.distinct i j key data data' (holding_settled (s := s.insertRow row) rfl hi).2
      (holding_settled (s := s.insertRow row) rfl hj).2

theorem Kept.insert (h : s.Kept) (hc : s.calls[k]? = some c) (hkey : c.phase.holds = some row.screenshotPath)
    (hupload : row.upload = c.request.data) :
    ((s.insertRow row).moveCallOn k (some row) (.touchDevice true)).Kept where
  saved := fun i key data hi => h.saved i key data (holding_settled (s := s.insertRow row) rfl hi).2
  objects := by
    intro r hr
    rcases List.mem_append.mp hr with hold | hnew
    · exact h.objects r hold
    · obtain rfl := List.mem_singleton.mp hnew
      exact .inr (.inr (h.saved k _ _ ⟨c, hc, hkey, hupload.symm⟩))
  referenced := by
    intro o ho
    rcases h.referenced o ho with ⟨r, hr, hpath⟩ | ⟨i, data, hheld⟩
    · exact .inl ⟨r, List.mem_append_left _ hr, hpath⟩
    · by_cases hi : i = k
      · subst hi
        exact .inl ⟨row, List.mem_append_right _ List.mem_cons_self, (hheld.key_eq hc hkey).symm⟩
      · exact .inr ⟨i, data, Holding.moveCallOn (s := s.insertRow row) hheld hi _ _⟩

theorem Purging.insert (h : s.Purging) (hkeyed : s.Keyed) (hheld : s.Holding k row.screenshotPath row.upload) :
    (s.insertRow row).Purging where
  batches := fun p hp r hr => mem_known_insertRow.mpr (.inl (h.batches p hp r hr))
  expired := fun p hp r hr => ⟨mem_known_insertRow.mpr (.inl (h.expired p hp r hr).1), (h.expired p hp r hr).2⟩
  left := by
    intro p hp
    -- the new row had not expired when any pass began
    have hrows : ∀ r ∈ p.expired, r ∈ (s.insertRow row).rows → r ∈ s.rows := by
      intro r hr hrow
      rcases List.mem_append.mp hrow with hold | hnew
      · exact hold
      · obtain rfl := List.mem_singleton.mp hnew
        exact absurd rfl ((hkeyed.held k _ _ hheld).2 r (h.expired p hp r hr).1)
    have hleft := h.left p hp
    unfold PurgePass.Left at hleft ⊢
    split at hleft
    · exact fun hfull r hr hrow => hleft hfull r hr (hrows r hr hrow)
    · exact fun hfull r hr hrow => hleft hfull r hr (hrows r hr hrow)
    · exact fun r hr hrow => hleft r hr (hrows r hr hrow)
    · trivial
  gone := h.gone

/-- **An upload inserts its row.** -/
theorem Sound.insert (h : s.Sound) (hc : s.calls[k]? = some c) (hkey : c.phase.holds = some row.screenshotPath)
    (hupload : row.upload = c.request.data) (hid : c.request.recordId = some row.id)
    (hnew : ∀ r ∈ s.rows, r.id ≠ row.id) :
    ((s.insertRow row).moveCallOn k (some row) (.touchDevice true)).Sound := by
  have hheld : s.Holding k row.screenshotPath row.upload := ⟨c, hc, hkey, hupload.symm⟩
  have hpurging := h.purging.insert h.keyed hheld
  refine ⟨h.keyed.insert hheld hnew, ?_, h.kept.insert hc hkey hupload,
    ⟨hpurging.batches, hpurging.expired, hpurging.left, hpurging.gone⟩⟩
  have hrest : (s.insertRow row).Answering := by
    refine ⟨h.answering.parsed, fun d hd hyes => ?_⟩
    obtain ⟨r, hr, hrid, hknown⟩ := h.answering.relied d hd hyes
    exact ⟨r, hr, hrid, mem_known_insertRow.mpr (.inl hknown)⟩
  refine hrest.moveCallOn hc (fun _ hid' => nomatch hid') fun _ => ?_
  exact ⟨row, rfl, hid.symm, mem_known_insertRow.mpr (.inr rfl)⟩

theorem Kept.deleteOwn (h : s.Kept) (hkeyed : s.Keyed) (hc : s.calls[k]? = some c)
    (hkey : c.phase.holds = some key) :
    ((s.deleteObject key).moveCallOn k c.relied (.touchDevice false)).Kept := by
  have hheld : s.Holding k key c.request.data := ⟨c, hc, hkey, rfl⟩
  refine ⟨fun i key' data hi => ?_, fun row hrow => ?_, fun o ho => ?_⟩
  · obtain ⟨hne, hold⟩ := holding_settled (s := s.deleteObject key) rfl hi
    refine (object_deleteObject s fun heq => hne ?_).trans (h.saved i key' data hold)
    exact hkeyed.distinct i k key data _ (heq ▸ hold) hheld
  · have hne := (hkeyed.held k key _ hheld).2 row (List.mem_append_left _ hrow)
    refine (h.objects row hrow).imp_right fun hrest => hrest.imp_right fun hobject => ?_
    exact (object_deleteObject s hne).trans hobject
  · obtain ⟨hin, hne⟩ := List.mem_filter.mp ho
    refine (h.referenced o hin).imp_right fun ⟨i, data, hi⟩ => ⟨i, data, ?_⟩
    refine Holding.moveCallOn (s := s.deleteObject key) hi (fun heq => ?_) c.relied _
    subst heq
    simp [hi.key_eq hc hkey] at hne

/-- **An upload deletes its own object**, after its record turned out to be a duplicate. -/
theorem Sound.deleteOwn (h : s.Sound) (hc : s.calls[k]? = some c) (hphase : c.phase = .deleteOwn key) :
    ((s.deleteObject key).moveCall k (.touchDevice false)).Sound := by
  have hcalls : (s.deleteObject key).calls[k]? = some c := hc
  have hkey : c.phase.holds = some key := by rw [hphase]; rfl
  rw [moveCall_eq hcalls]
  have hkeyed : (s.deleteObject key).Keyed :=
    ⟨h.keyed.ids, h.keyed.determined, h.keyed.suffixes,
      fun o ho => h.keyed.stored o (List.mem_of_mem_filter ho), h.keyed.held, h.keyed.distinct⟩
  have hanswering : (s.deleteObject key).Answering := ⟨h.answering.parsed, h.answering.relied⟩
  refine ⟨hkeyed.moveCallOn hcalls (fun _ hnone => nomatch hnone), ?_, h.kept.deleteOwn h.keyed hc hkey,
    ⟨h.purging.batches, h.purging.expired, h.purging.left,
      fun p hp r hr o ho => h.purging.gone p hp r hr o (List.mem_of_mem_filter ho)⟩⟩
  refine hanswering.moveCallOn hcalls (fun _ hid' => nomatch hid') fun _ => ?_
  exact h.answering.relied c (List.mem_of_getElem? hc) (by rw [hphase]; rfl)

end

end

/-! ## The steps of an upload -/

section

variable {s : ScreenshotStore} {k : Nat} {c : UploadCall} {raises : Bool}

/-- A check of an upload either refuses it or goes on with the record that it has parsed. -/
def Proceeds (c : UploadCall) (phase : UploadPhase) : Prop :=
  phase.holds = none ∧ phase.answers = false ∧ ∀ id ∈ phase.recordId, c.request.recordId = some id

theorem Sound.proceed (h : s.Sound) (hc : s.calls[k]? = some c) (hnone : c.phase.holds = none)
    {phase : UploadPhase} (hphase : Proceeds c phase) : (s.moveCall k phase).Sound :=
  h.moveCall hc hnone hphase.1 hphase.2.1 hphase.2.2

theorem proceeds_refused (c : UploadCall) (status : Nat) (detail : String) :
    Proceeds c (.finished (.refused status detail)) := ⟨rfl, rfl, fun _ hid => nomatch hid⟩

theorem proceeds_failed (c : UploadCall) : Proceeds c (.finished .failed) := ⟨rfl, rfl, fun _ hid => nomatch hid⟩

theorem proceeds_afterSettings (c : UploadCall) (w : Surroundings) : Proceeds c (c.request.afterSettings w) := by
  unfold UploadRequest.afterSettings
  split
  · exact proceeds_refused c _ _
  split
  · exact proceeds_refused c _ _
  split
  · rename_i id captured hid _
    exact ⟨rfl, rfl, fun id' hid' => by rw [hid]; exact hid'⟩
  · exact proceeds_refused c _ _

section

variable {id : Nat} {captured : Int} (hid : c.request.recordId = some id) (w : Surroundings)

include hid

theorem proceeds_afterLookup : Proceeds c (c.request.afterLookup w id captured) := by
  unfold UploadRequest.afterLookup
  split
  · exact proceeds_refused c _ _
  split
  · exact ⟨rfl, rfl, fun id' hid' => hid.trans hid'⟩
  · exact ⟨rfl, rfl, fun id' hid' => hid.trans hid'⟩

theorem proceeds_afterSession : Proceeds c (c.request.afterSession w id captured) := by
  unfold UploadRequest.afterSession
  split
  · exact proceeds_refused c _ _
  · exact ⟨rfl, rfl, fun id' hid' => hid.trans hid'⟩

theorem proceeds_afterCapture (settings : ScreenshotSettings) :
    Proceeds c (c.request.afterCapture settings w id captured) := by
  unfold UploadRequest.afterCapture
  split
  · exact proceeds_refused c _ _
  split
  · exact proceeds_refused c _ _
  · exact ⟨rfl, rfl, fun id' hid' => hid.trans hid'⟩

end

/-- An insert that settles either inserts the row, or finds the row of its record id. -/
theorem Sound.addRecord (h : s.Sound) (hc : s.calls[k]? = some c) {id : Nat} {captured : Int}
    {key : ScreenshotKey} (hphase : c.phase = .addRecord id captured key) (hguard : s.InsertSettles c raises) :
    (s.addRecord k c.request raises id captured key).Sound := by
  have hid : c.request.recordId = some id :=
    h.answering.parsed c (List.mem_of_getElem? hc) id (by rw [hphase]; rfl)
  have hkey : c.phase.holds = some key := by rw [hphase]; rfl
  simp only [InsertSettles, hphase] at hguard
  obtain ⟨hraises, hown⟩ := hguard
  unfold ScreenshotStore.addRecord
  rw [if_neg (by simp [hraises])]
  split
  · rename_i hconflict
    obtain ⟨row, hrow, hrowid⟩ := hown hconflict
    have hfound : s.rows.find? (·.id == id) = some row := by
      rw [← hrowid]
      exact h.keyed.ids.find?_eq hrow
    refine h.moveCallOn hc hkey.symm (fun _ hnone => nomatch hnone) fun _ => ?_
    exact ⟨row, hfound, by rw [hrowid, hid], List.mem_append_left _ hrow⟩
  · rename_i hconflict
    refine h.insert hc hkey rfl hid ?_
    intro r hr heq
    exact hconflict (List.any_eq_true.mpr ⟨r, hr, by simp [heq]⟩)

/-- **One call of an upload.** -/
theorem Sound.ingest (h : s.Sound) (settings : ScreenshotSettings) (w : Surroundings)
    (hguard : ∀ c ∈ s.calls[k]?, s.InsertSettles c raises) : (s.ingest settings k raises w).Sound := by
  unfold ScreenshotStore.ingest
  split
  · exact h
  rename_i c hc
  have hmem : c ∈ s.calls := List.mem_of_getElem? hc
  have hparsed := h.answering.parsed c hmem
  have hproceed : ∀ {phase}, c.phase.holds = none → Proceeds c phase →
      (s.moveCall k (if raises then .finished .failed else phase)).Sound := by
    intro phase hnone hphase
    split
    · exact h.proceed hc hnone (proceeds_failed c)
    · exact h.proceed hc hnone hphase
  split
  · rename_i hphase
    split
    · exact h.proceed hc (by rw [hphase]; rfl) (proceeds_refused c _ _)
    · exact hproceed (by rw [hphase]; rfl) (proceeds_afterSettings c w)
  · rename_i id captured hphase
    have hnone : c.phase.holds = none := by rw [hphase]; rfl
    have hid : c.request.recordId = some id := hparsed id (by rw [hphase]; rfl)
    split
    · exact h.proceed hc hnone (proceeds_failed c)
    split
    · rename_i row hrow
      refine h.moveCallOn hc hnone.symm (fun _ hnone => nomatch hnone) fun _ => ?_
      have hrowid : row.id = id := by simpa using List.find?_some hrow
      exact ⟨row, rfl, by rw [hrowid, hid], List.mem_append_left _ (List.mem_of_find?_eq_some hrow)⟩
    · exact h.proceed hc hnone (proceeds_afterLookup hid w)
  · rename_i id captured hphase
    exact hproceed (by rw [hphase]; rfl) (proceeds_afterSession (hparsed id (by rw [hphase]; rfl)) w)
  · rename_i id captured hphase
    exact hproceed (by rw [hphase]; rfl) (proceeds_afterCapture (hparsed id (by rw [hphase]; rfl)) w settings)
  · rename_i id captured hphase
    have hnone : c.phase.holds = none := by rw [hphase]; rfl
    unfold ScreenshotStore.save
    split
    · exact h.proceed hc hnone (proceeds_refused c _ _)
    split
    · exact h.proceed hc hnone (proceeds_failed c)
    · exact h.save hc hnone (hparsed id (by rw [hphase]; rfl)) rfl
  · rename_i id captured key hphase
    exact h.addRecord hc hphase (hguard c hc)
  · rename_i key hphase
    exact h.deleteOwn hc hphase
  · rename_i created hphase
    have hnone : c.phase.holds = none := by rw [hphase]; rfl
    have hrelied := h.answering.relied c hmem (by rw [hphase]; rfl)
    rw [moveCall_eq hc]
    refine h.moveCallOn hc ?_ ?_ fun _ => hrelied
    · rw [hnone]
      rfl
    · exact fun _ hnone => nomatch hnone
  · exact h

end

end ScreenshotStore

end Dayfinch
