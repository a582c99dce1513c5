/-
# Dayfinch.Invoices.Consistency -- invoiced time is consistent, and a settled invoice stays as it is

What a transaction writes is one list of moves, `InvoiceMove`, and all of them but the new invoice touch
the lines of one invoice only. Every invariant is read off the moves: a time source is on one line, a
tracked line has the hours of its sources, and a call that raises a `ValueError` leaves nothing behind.
These hold in every run.

That the lines stay as they are once the invoice has left draft does not. A call that makes an invoice
from time shows it as a draft before it writes the lines, and neither the transaction that writes them nor
the one that takes the invoice back reads the status: the owner can submit the placeholder in between.
-/
import Mathlib.Data.List.Nodup
import Dayfinch.Invoices.Team

namespace Dayfinch

open Library (updateWhere UniqueKey CountedKeys Ensures ensures_ite ensures_map Guarded run
  guarded_invariant run_invariant run_append guarded_append mem_updateWhere_cases
  mem_updateWhere_of_mem)

/-! ## The condition -/

/-- The invoice, where there is one, is a draft. -/
def InvoiceStore.isDraft (s : InvoiceStore) (invoiceId : Nat) : Bool :=
  (s.getInvoice invoiceId).all (·.status == .draft)

/-- The invoice that a call has still to write or to take back. -/
def TimeInvoicePhase.unfinished? : TimeInvoicePhase → Option Nat
  | .created _ _ _ invoiceId => some invoiceId
  | .failed invoiceId _ => some invoiceId
  | _ => none

/-- A call finds the invoice it has created still a draft. -/
def InvoiceOp.onDraft (s : InvoiceState) : InvoiceOp → Bool
  | .nextTransaction callId => (s.calls callId).unfinished?.all s.store.isDraft
  | _ => true

/-! ## What a transaction writes -/

/-- The sum of the seconds behind a line. -/
def InvoiceStore.sourceSeconds (s : InvoiceStore) (lineId : Nat) : Int :=
  ((s.sources.filter (·.lineId == lineId)).map (·.seconds)).sum

/-- A change of an invoice keeps its id, and it does not go back to draft. -/
structure KeepsSettled (f : TeamInvoice → TeamInvoice) : Prop where
  id : ∀ invoice, (f invoice).id = invoice.id
  settled : ∀ invoice, invoice.status ≠ .draft → (f invoice).status ≠ .draft

/-- All that a transaction can do, with the lines of at most one invoice that exists. -/
inductive InvoiceMove (invoiceId : Nat) : InvoiceStore → InvoiceStore → Prop
  | environment (s : InvoiceStore) (work : Database) (owners : List InvoiceOwner)
    (projectNames : List (Nat × String)) :
    InvoiceMove invoiceId s { s with work, owners, projectNames }
  | create (s : InvoiceStore) (invoice : TeamInvoice) (line : TeamInvoiceLine)
    (hinvoice : invoice.id = s.nextId) (hid : line.id = s.nextId + 1)
    (hline : line.invoiceId = s.nextId) (hmanual : line.tracked = false) :
    InvoiceMove invoiceId s
      { s with invoices := s.invoices ++ [invoice], lines := s.lines ++ [line], nextId := s.nextId + 2 }
  | change (s : InvoiceStore) (selected : TeamInvoice → Bool) {f : TeamInvoice → TeamInvoice}
    (hf : KeepsSettled f) : InvoiceMove invoiceId s { s with invoices := updateWhere selected f s.invoices }
  | rewrite (s : InvoiceStore) {f : TeamInvoiceLine → TeamInvoiceLine}
    (hf : ∀ line, (f line).id = line.id ∧ (f line).invoiceId = line.invoiceId ∧
      (f line).tracked = line.tracked) :
    InvoiceMove invoiceId s
      { s with lines := updateWhere (fun line => line.invoiceId == invoiceId && !line.tracked) f s.lines }
  | clear (s : InvoiceStore) : InvoiceMove invoiceId s (s.deleteLines invoiceId)
  | delete (s : InvoiceStore) : InvoiceMove invoiceId s (s.deleteInvoice invoiceId)
  | insert (s : InvoiceStore) (line : TeamInvoiceLine) (sources : List TimeSource)
    (hinvoice : (s.getInvoice invoiceId).isSome) (hid : line.id = s.nextId)
    (hline : line.invoiceId = invoiceId)
    (hquantity : line.quantity = hoursHundredths (sources.map (·.seconds)).sum)
    (hsources : ∀ source ∈ sources, source.lineId = line.id)
    (hkeys : UniqueKey (·.key) (s.sources ++ sources)) :
    InvoiceMove invoiceId s
      { s with lines := s.lines ++ [line], sources := s.sources ++ sources, nextId := s.nextId + 1 }
  | trans {s s' s'' : InvoiceStore} (h : InvoiceMove invoiceId s s') (h' : InvoiceMove invoiceId s' s'') :
    InvoiceMove invoiceId s s''

theorem InvoiceMove.refl (invoiceId : Nat) (s : InvoiceStore) : InvoiceMove invoiceId s s :=
  .environment s s.work s.owners s.projectNames

section

variable {s s' : InvoiceStore} {invoiceId : Nat}

/-! ## The transactions move -/

theorem createTeamInvoice_move (words : InvoiceWords) (new : NewInvoice) :
    Ensures (createTeamInvoice words s new) fun r =>
      r.2 = s.nextId ∧ r.1.nextId = s.nextId + 2 ∧ InvoiceMove invoiceId s r.1 := by
  unfold createTeamInvoice
  refine ensures_raiseIf.bind fun _ _ => ?_
  refine ensures_raiseIf.bind fun _ _ => ?_
  split
  · simp
  · dsimp only
    refine ensures_raiseIf.bind fun _ _ => ?_
    refine Ensures.bind (P := fun _ => True) (fun _ _ => trivial) fun quantity _ => ?_
    refine Ensures.bind (P := fun _ => True) (fun _ _ => trivial) fun unitPrice _ => ?_
    refine ensures_ite (fun _ => by simp) fun _ => ?_
    rw [Library.ensures_pure]
    exact ⟨rfl, rfl, .create s _ _ rfl rfl rfl rfl⟩

theorem submitTeamInvoice_move (userId number : Nat) :
    Ensures (submitTeamInvoice s number userId) (InvoiceMove invoiceId s) := by
  unfold submitTeamInvoice
  refine ensures_raiseIf.bind fun _ _ => ?_
  rw [Library.ensures_pure]
  exact .change s _ ⟨fun _ => rfl, fun _ _ => by simp⟩

theorem recordTeamInvoicePayment_move (number : Nat) (amount : Rat) :
    Ensures (recordTeamInvoicePayment s number amount) (InvoiceMove invoiceId s) := by
  unfold recordTeamInvoicePayment
  refine ensures_raiseIf.bind fun _ _ => ?_
  split
  · simp
  · refine ensures_raiseIf.bind fun _ _ => ?_
    dsimp only
    refine ensures_raiseIf.bind fun _ _ => ?_
    refine Ensures.bind (P := fun _ => True) (fun _ _ => trivial) fun stored _ => ?_
    refine Ensures.bind (P := fun _ => True) (fun _ _ => trivial) fun paidAmount _ => ?_
    refine ensures_ite (fun _ => by simp) fun _ => ?_
    rw [Library.ensures_pure]
    refine .change s _ ⟨fun _ => rfl, fun _ _ => ?_⟩
    dsimp only
    split
    · exact InvoiceStatus.noConfusion
    · exact InvoiceStatus.noConfusion

theorem voidTeamInvoice_move (number : Nat) :
    Ensures (voidTeamInvoice s number) (InvoiceMove invoiceId s) := by
  unfold voidTeamInvoice
  refine ensures_raiseIf.bind fun _ _ => ?_
  rw [Library.ensures_pure]
  exact .change s _ ⟨fun _ => rfl, fun _ _ => by simp⟩

theorem updateManualLine_move (update : DraftUpdate) :
    Ensures (updateManualLine s invoiceId update) (InvoiceMove invoiceId s) := by
  unfold updateManualLine
  split
  · rw [Library.ensures_ok]
    exact .refl invoiceId s
  · split
    · simp
    · refine ensures_raiseIf.bind fun _ _ => ?_
      split
      · simp
      · refine ensures_raiseIf.bind fun _ _ => ?_
        dsimp only
        refine Ensures.bind (P := fun _ => True) (fun _ _ => trivial) fun storedQuantity _ => ?_
        refine Ensures.bind (P := fun _ => True) (fun _ _ => trivial) fun storedPrice _ => ?_
        refine ensures_ite (fun _ => by simp) fun _ => ?_
        refine ensures_raiseIf.bind fun _ _ => ?_
        rw [Library.ensures_pure]
        exact .rewrite s fun _ => ⟨rfl, rfl, rfl⟩

/-- A draft that is found by its owner is a draft, since ids are unique. -/
theorem isDraft_of_any (hunique : UniqueKey (·.id) s.invoices) {userId : Nat}
    (h : ¬ s.invoices.any (fun invoice =>
      invoice.id == invoiceId && invoice.userId == userId && invoice.status == .draft) = false) :
    s.isDraft invoiceId = true := by
  rw [Bool.not_eq_false, List.any_eq_true] at h
  obtain ⟨invoice, hmem, hfound⟩ := h
  simp only [Bool.and_eq_true, beq_iff_eq] at hfound
  obtain ⟨⟨hid, _⟩, hdraft⟩ := hfound
  have hget : s.getInvoice invoice.id = some invoice := hunique.find?_eq hmem
  rw [InvoiceStore.isDraft, ← hid, hget]
  simp [hdraft]

theorem updateTeamInvoiceDraft_move (hunique : UniqueKey (·.id) s.invoices) (userId : Nat)
    (update : DraftUpdate) :
    Ensures (updateTeamInvoiceDraft s invoiceId userId update) fun s' =>
      s.isDraft invoiceId = true ∧ InvoiceMove invoiceId s s' := by
  unfold updateTeamInvoiceDraft
  refine ensures_raiseIf.bind fun _ _ => ?_
  refine ensures_raiseIf.bind fun _ hfound => ?_
  refine (updateManualLine_move update).bind fun s₁ hmove => ?_
  rw [Library.ensures_pure]
  exact ⟨isDraft_of_any hunique hfound,
    hmove.trans (.change s₁ _ ⟨fun _ => rfl, fun _ hsettled => hsettled⟩)⟩

theorem deleteTeamInvoiceDraft_move (hunique : UniqueKey (·.id) s.invoices) (userId : Nat) :
    Ensures (deleteTeamInvoiceDraft s invoiceId userId) fun s' =>
      s.isDraft invoiceId = true ∧ InvoiceMove invoiceId s s' := by
  unfold deleteTeamInvoiceDraft
  refine ensures_raiseIf.bind fun _ hfound => ?_
  rw [Library.ensures_pure]
  exact ⟨isDraft_of_any hunique hfound, .delete s⟩

/-- The sources are appended, and none of them was there. -/
theorem insertSources (sources : List TimeSource) (hunique : UniqueKey (·.key) s.sources) :
    Ensures (sources.foldlM insertSource s) fun s' =>
      s' = { s with sources := s.sources ++ sources } ∧ UniqueKey (·.key) (s.sources ++ sources) := by
  induction sources generalizing s with
  | nil =>
    rw [List.foldlM_nil, Library.ensures_pure, List.append_nil]
    exact ⟨rfl, hunique⟩
  | cons source sources ih =>
    rw [List.foldlM_cons]
    refine Ensures.bind (P := fun s₁ => s₁ = { s with sources := s.sources ++ [source] } ∧
      UniqueKey (·.key) (s.sources ++ [source])) ?_ fun s₁ h₁ => ?_
    · unfold insertSource
      refine ensures_ite (fun _ => by simp) fun hfresh => ?_
      rw [Library.ensures_ok]
      refine ⟨rfl, hunique.append_fresh fun other hother heq => hfresh ?_⟩
      exact List.any_eq_true.mpr ⟨other, hother, beq_iff_eq.mpr heq⟩
    · obtain ⟨rfl, hunique₁⟩ := h₁
      have hrest := ih (s := { s with sources := s.sources ++ [source] }) hunique₁
      simp only [List.append_assoc, List.singleton_append] at hrest
      exact hrest

theorem insertProjectTime_move (hunique : UniqueKey (·.key) s.sources) (call : TimeInvoice)
    (payRate : Int) (group : ProjectTime) :
    Ensures (insertProjectTime call payRate invoiceId s group) fun s' =>
      UniqueKey (·.key) s'.sources ∧ InvoiceMove invoiceId s s' := by
  unfold insertProjectTime
  dsimp only
  refine ensures_ite (fun _ => ?_) fun _ => ?_
  · rw [Library.ensures_ok]
    exact ⟨hunique, .refl invoiceId s⟩
  · split
    · simp
    · refine ensures_ite (fun _ => by simp) fun hinvoice => ?_
      refine ensures_ite (fun _ => by simp) fun _ => ?_
      refine ensures_ite (fun _ => by simp) fun _ => ?_
      refine (insertSources _ ?_).mono ?_
      · exact hunique
      · rintro s' ⟨rfl, hkeys⟩
        refine ⟨hkeys, .insert s _ _ ?_ rfl rfl ?_ ?_ hkeys⟩
        · exact Option.isSome_iff_ne_none.mpr (by simpa using hinvoice)
        · rw [List.map_map]
          rfl
        · intro source hsource
          obtain ⟨_, _, rfl⟩ := List.mem_map.mp hsource
          rfl

theorem insertProjectTimes_move (hunique : UniqueKey (·.key) s.sources) (call : TimeInvoice)
    (payRate : Int) (groups : List ProjectTime) :
    Ensures (groups.foldlM (insertProjectTime call payRate invoiceId) s) (InvoiceMove invoiceId s) := by
  induction groups generalizing s with
  | nil =>
    rw [List.foldlM_nil, Library.ensures_pure]
    exact .refl invoiceId s
  | cons group groups ih =>
    rw [List.foldlM_cons]
    refine (insertProjectTime_move hunique call payRate group).bind ?_
    rintro s₁ ⟨hunique₁, hmove⟩
    exact (ih hunique₁).mono fun s₂ hrest => hmove.trans hrest

theorem writeTracked_move (hunique : UniqueKey (·.key) s.sources) (call : TimeInvoice) (payRate : Int)
    (groups : List ProjectTime) :
    Ensures (writeTracked s call payRate groups invoiceId) (InvoiceMove invoiceId s) := by
  unfold writeTracked
  have hcleared : UniqueKey (·.key) (s.deleteLines invoiceId).sources :=
    hunique.sublist List.filter_sublist
  refine (insertProjectTimes_move hcleared call payRate groups).bind fun s₁ hmove => ?_
  refine ensures_raiseIf.bind fun _ _ => ?_
  rw [Library.ensures_pure]
  exact .trans (.clear s) hmove

/-! ## The invariant -/

/-- Lines belong to invoices and sources to lines, each time source is on one line, and a tracked line has
the hours of its sources. -/
structure InvoiceInvariant (s : InvoiceStore) : Prop where
  invoices : CountedKeys (·.id) s.invoices s.nextId
  lines : CountedKeys (·.id) s.lines s.nextId
  owned : ∀ line ∈ s.lines, ∃ invoice ∈ s.invoices, invoice.id = line.invoiceId
  keys : UniqueKey (·.key) s.sources
  held : ∀ source ∈ s.sources, ∃ line ∈ s.lines, line.id = source.lineId
  quantities : ∀ line ∈ s.lines, line.tracked → line.quantity = hoursHundredths (s.sourceSeconds line.id)

theorem mem_deleteLines {line : TeamInvoiceLine} :
    line ∈ (s.deleteLines invoiceId).lines ↔ line ∈ s.lines ∧ line.invoiceId ≠ invoiceId := by
  simp [InvoiceStore.deleteLines]

/-- The sources of the lines that stay are kept, and no others. -/
theorem mem_deleteLines_sources {source : TimeSource} :
    source ∈ (s.deleteLines invoiceId).sources ↔
      source ∈ s.sources ∧ ∀ line ∈ s.lines, line.invoiceId = invoiceId → line.id ≠ source.lineId := by
  simp [InvoiceStore.deleteLines, InvoiceStore.linesOf]

theorem InvoiceInvariant.deleteLines (h : InvoiceInvariant s) :
    InvoiceInvariant (s.deleteLines invoiceId) where
  invoices := h.invoices
  lines := h.lines.sublist List.filter_sublist
  owned := by
    intro line hline
    exact h.owned line (mem_deleteLines.mp hline).1
  keys := h.keys.sublist List.filter_sublist
  held := by
    intro source hsource
    obtain ⟨hmem, hkept⟩ := mem_deleteLines_sources.mp hsource
    obtain ⟨line, hline, hid⟩ := h.held source hmem
    exact ⟨line, mem_deleteLines.mpr ⟨hline, fun hof => hkept line hline hof hid⟩, hid⟩
  quantities := by
    intro line hline htracked
    obtain ⟨hmem, hother⟩ := mem_deleteLines.mp hline
    rw [h.quantities line hmem htracked]
    -- the sources of a line that stays are all kept: no deleted line has its id
    have hsame : (s.deleteLines invoiceId).sources.filter (·.lineId == line.id) =
        s.sources.filter (·.lineId == line.id) := by
      unfold InvoiceStore.deleteLines
      rw [List.filter_filter]
      refine List.filter_congr fun source _ => ?_
      by_cases hid : source.lineId = line.id
      · have hnone : (s.linesOf invoiceId).any (·.id == source.lineId) = false := by
          rw [List.any_eq_false]
          intro other hother' heq
          obtain ⟨hother', hof⟩ := List.mem_filter.mp hother'
          have hline' : other = line :=
            h.lines.unique.eq hother' hmem ((beq_iff_eq.mp heq).trans hid)
          exact hother (hline' ▸ beq_iff_eq.mp hof)
        simp [hnone]
      · simp [hid]
    unfold InvoiceStore.sourceSeconds
    rw [hsame]

theorem InvoiceInvariant.deleteInvoice (h : InvoiceInvariant s) :
    InvoiceInvariant (s.deleteInvoice invoiceId) := by
  have hlines : InvoiceInvariant (s.deleteLines invoiceId) := h.deleteLines
  refine { hlines with invoices := h.invoices.sublist List.filter_sublist, owned := ?_ }
  intro line hline
  obtain ⟨hmem, hother⟩ := mem_deleteLines.mp hline
  obtain ⟨invoice, hinvoice, hid⟩ := h.owned line hmem
  refine ⟨invoice, List.mem_filter.mpr ⟨hinvoice, ?_⟩, hid⟩
  simpa [hid] using hother

/-- The hours of a line whose sources are all new, and of the others. -/
theorem sum_append_sources {lineId : Nat} {sources added : List TimeSource} {k : Nat}
    (hadded : ∀ source ∈ added, source.lineId = k) :
    (((sources ++ added).filter (·.lineId == lineId)).map (·.seconds)).sum =
      ((sources.filter (·.lineId == lineId)).map (·.seconds)).sum +
        if lineId = k then (added.map (·.seconds)).sum else 0 := by
  rw [List.filter_append, List.map_append, List.sum_append]
  congr 1
  split
  · rename_i hk
    rw [List.filter_eq_self.mpr fun source hs => by simp [hadded source hs, hk]]
  · rename_i hk
    rw [List.filter_eq_nil_iff.mpr fun source hs => by simp [hadded source hs, Ne.symm hk]]
    rfl

/-- A line that does not exist has no sources. -/
theorem InvoiceInvariant.sourceSeconds_fresh (h : InvoiceInvariant s) {lineId : Nat}
    (hfresh : s.nextId ≤ lineId) : s.sourceSeconds lineId = 0 := by
  unfold InvoiceStore.sourceSeconds
  rw [List.filter_eq_nil_iff.mpr]
  · rfl
  · intro source hsource heq
    obtain ⟨line, hline, hid⟩ := h.held source hsource
    have hbelow := h.lines.below line hline
    rw [beq_iff_eq] at heq
    omega

theorem InvoiceInvariant.create (h : InvoiceInvariant s) {invoice : TeamInvoice} {line : TeamInvoiceLine}
    (hinvoice : invoice.id = s.nextId) (hid : line.id = s.nextId + 1)
    (hline : line.invoiceId = s.nextId) (hmanual : line.tracked = false) :
    InvoiceInvariant
      { s with invoices := s.invoices ++ [invoice], lines := s.lines ++ [line], nextId := s.nextId + 2 } where
  invoices := (h.invoices.append hinvoice).mono (Nat.le_succ _)
  lines := (h.lines.mono (Nat.le_succ _)).append hid
  owned := by
    intro other hother
    rcases List.mem_append.mp hother with hold | hnew
    · obtain ⟨invoice', hinvoice', heq⟩ := h.owned other hold
      exact ⟨invoice', List.mem_append_left _ hinvoice', heq⟩
    · obtain rfl := List.mem_singleton.mp hnew
      exact ⟨invoice, List.mem_append_right _ List.mem_cons_self, hinvoice.trans hline.symm⟩
  keys := h.keys
  held := by
    intro source hsource
    obtain ⟨other, hother, heq⟩ := h.held source hsource
    exact ⟨other, List.mem_append_left _ hother, heq⟩
  quantities := by
    intro other hother htracked
    rcases List.mem_append.mp hother with hold | hnew
    · exact h.quantities other hold htracked
    · obtain rfl := List.mem_singleton.mp hnew
      rw [hmanual] at htracked
      cases htracked

theorem InvoiceInvariant.insert (h : InvoiceInvariant s) {line : TeamInvoiceLine}
    {sources : List TimeSource} (hinvoice : (s.getInvoice invoiceId).isSome) (hid : line.id = s.nextId)
    (hline : line.invoiceId = invoiceId)
    (hquantity : line.quantity = hoursHundredths (sources.map (·.seconds)).sum)
    (hsources : ∀ source ∈ sources, source.lineId = line.id)
    (hkeys : UniqueKey (·.key) (s.sources ++ sources)) :
    InvoiceInvariant
      { s with lines := s.lines ++ [line], sources := s.sources ++ sources, nextId := s.nextId + 1 } where
  invoices := h.invoices.mono (Nat.le_succ _)
  lines := h.lines.append hid
  owned := by
    intro other hother
    rcases List.mem_append.mp hother with hold | hnew
    · exact h.owned other hold
    · obtain rfl := List.mem_singleton.mp hnew
      obtain ⟨invoice, hget⟩ := Option.isSome_iff_exists.mp hinvoice
      have heq : invoice.id = invoiceId := by simpa using List.find?_some hget
      exact ⟨invoice, List.mem_of_find?_eq_some hget, heq.trans hline.symm⟩
  keys := hkeys
  held := by
    intro source hsource
    rcases List.mem_append.mp hsource with hold | hnew
    · obtain ⟨other, hother, heq⟩ := h.held source hold
      exact ⟨other, List.mem_append_left _ hother, heq⟩
    · exact ⟨line, List.mem_append_right _ List.mem_cons_self, (hsources source hnew).symm⟩
  quantities := by
    intro other hother htracked
    unfold InvoiceStore.sourceSeconds
    rw [sum_append_sources hsources]
    rcases List.mem_append.mp hother with hold | hnew
    · have hne : other.id ≠ line.id := by
        have hbelow := h.lines.below other hold
        omega
      rw [if_neg hne, Int.add_zero]
      exact h.quantities other hold htracked
    · obtain rfl := List.mem_singleton.mp hnew
      have hzero : s.sourceSeconds other.id = 0 := h.sourceSeconds_fresh (Nat.le_of_eq hid.symm)
      unfold InvoiceStore.sourceSeconds at hzero
      rw [if_pos rfl, hzero, Int.zero_add]
      exact hquantity

/-- **Every move keeps the invariant.** -/
theorem InvoiceMove.invariant (hmove : InvoiceMove invoiceId s s') (h : InvoiceInvariant s) :
    InvoiceInvariant s' := by
  induction hmove with
  | environment s work owners projectNames => exact { h with }
  | create s invoice line hinvoice hid hline hmanual => exact h.create hinvoice hid hline hmanual
  | change s selected hf =>
    refine { h with invoices := h.invoices.updateWhere hf.id, owned := ?_ }
    intro line hline
    obtain ⟨invoice, hinvoice, heq⟩ := h.owned line hline
    refine ⟨_, mem_updateWhere_of_mem hinvoice, ?_⟩
    split
    · exact (hf.id invoice).trans heq
    · exact heq
  | rewrite s hf =>
    refine { h with lines := h.lines.updateWhere fun line => (hf line).1, owned := ?_, held := ?_,
                    quantities := ?_ }
    · intro line hline
      rcases mem_updateWhere_cases hline with ⟨hold, _⟩ | ⟨old, hold, _, rfl⟩
      · exact h.owned line hold
      · rw [(hf old).2.1]
        exact h.owned old hold
    · intro source hsource
      obtain ⟨line, hline, heq⟩ := h.held source hsource
      refine ⟨_, mem_updateWhere_of_mem hline, ?_⟩
      split
      · exact (hf line).1.trans heq
      · exact heq
    · intro line hline htracked
      rcases mem_updateWhere_cases hline with ⟨hold, _⟩ | ⟨old, _, hselected, rfl⟩
      · exact h.quantities line hold htracked
      · rw [(hf old).2.2] at htracked
        simp [htracked] at hselected
  | clear s => exact h.deleteLines
  | delete s => exact h.deleteInvoice
  | insert s line sources hinvoice hid hline hquantity hsources hkeys =>
    exact h.insert hinvoice hid hline hquantity hsources hkeys
  | trans _ _ ih ih' => exact ih' (ih h)

/-! ## What a move leaves -/

theorem linesOf_append {line : TeamInvoiceLine} {number : Nat} (hother : line.invoiceId ≠ number) :
    (s.lines ++ [line]).filter (·.invoiceId == number) = s.linesOf number := by
  have hnone : [line].filter (·.invoiceId == number) = [] := by
    simpa using hother
  rw [List.filter_append, hnone, List.append_nil, InvoiceStore.linesOf]

theorem linesOf_deleteLines {number : Nat} (hother : number ≠ invoiceId) :
    (s.deleteLines invoiceId).linesOf number = s.linesOf number := by
  unfold InvoiceStore.linesOf InvoiceStore.deleteLines
  rw [List.filter_filter]
  refine List.filter_congr fun line _ => ?_
  by_cases hof : line.invoiceId = number
  · simp [hof, hother]
  · simp [hof]

/-- An invoice stays, and where it was settled it stays settled. -/
def Stays (s' : InvoiceStore) (invoice : TeamInvoice) : Prop :=
  ∃ invoice' ∈ s'.invoices, invoice'.id = invoice.id ∧ (invoice.status ≠ .draft → invoice'.status ≠ .draft)

theorem Stays.of_mem {invoice : TeamInvoice} (h : invoice ∈ s.invoices) : Stays s invoice :=
  ⟨invoice, h, rfl, id⟩

/-- The supply of ids grows, and a new invoice takes its id from it. -/
theorem InvoiceMove.fresh (hmove : InvoiceMove invoiceId s s') :
    s.nextId ≤ s'.nextId ∧ ∀ invoice' ∈ s'.invoices,
      (∃ invoice ∈ s.invoices, invoice.id = invoice'.id) ∨ s.nextId ≤ invoice'.id := by
  induction hmove with
  | environment s work owners projectNames =>
    exact ⟨Nat.le_refl _, fun invoice h => .inl ⟨invoice, h, rfl⟩⟩
  | create s invoice line hinvoice hid hline hmanual =>
    refine ⟨Nat.le_add_right _ _, fun invoice' h => ?_⟩
    rcases List.mem_append.mp h with hold | hnew
    · exact .inl ⟨invoice', hold, rfl⟩
    · obtain rfl := List.mem_singleton.mp hnew
      exact .inr (Nat.le_of_eq hinvoice.symm)
  | change s selected hf =>
    refine ⟨Nat.le_refl _, fun invoice' h => .inl ?_⟩
    rcases mem_updateWhere_cases h with ⟨hold, _⟩ | ⟨old, hold, _, rfl⟩
    · exact ⟨invoice', hold, rfl⟩
    · exact ⟨old, hold, (hf.id old).symm⟩
  | rewrite s hf => exact ⟨Nat.le_refl _, fun invoice h => .inl ⟨invoice, h, rfl⟩⟩
  | clear s => exact ⟨Nat.le_refl _, fun invoice h => .inl ⟨invoice, h, rfl⟩⟩
  | delete s =>
    exact ⟨Nat.le_refl _, fun invoice h => .inl ⟨invoice, (List.mem_filter.mp h).1, rfl⟩⟩
  | insert s line sources => exact ⟨Nat.le_succ _, fun invoice h => .inl ⟨invoice, h, rfl⟩⟩
  | trans _ _ ih ih' =>
    refine ⟨Nat.le_trans ih.1 ih'.1, fun invoice'' h => ?_⟩
    rcases ih'.2 invoice'' h with ⟨invoice', h', heq'⟩ | hfresh
    · rcases ih.2 invoice' h' with ⟨invoice, h, heq⟩ | hfresh
      · exact .inl ⟨invoice, h, heq.trans heq'⟩
      · exact .inr (heq' ▸ hfresh)
    · exact .inr (Nat.le_trans ih.1 hfresh)

/-- **The invoices whose lines are not written** stay, with their lines. -/
theorem InvoiceMove.frame (hmove : InvoiceMove invoiceId s s') (h : InvoiceInvariant s)
    {invoice : TeamInvoice} (hmem : invoice ∈ s.invoices) (hother : invoice.id ≠ invoiceId) :
    Stays s' invoice ∧ s'.linesOf invoice.id = s.linesOf invoice.id := by
  induction hmove generalizing invoice with
  | environment s work owners projectNames => exact ⟨.of_mem hmem, rfl⟩
  | create s created line hinvoice hid hline hmanual =>
    refine ⟨⟨invoice, List.mem_append_left _ hmem, rfl, id⟩, ?_⟩
    have hbelow := h.invoices.below invoice hmem
    exact linesOf_append (by omega)
  | change s selected hf =>
    refine ⟨⟨_, mem_updateWhere_of_mem hmem, ?_⟩, rfl⟩
    split
    · exact ⟨hf.id invoice, hf.settled invoice⟩
    · exact ⟨rfl, id⟩
  | rewrite s hf =>
    refine ⟨.of_mem hmem, ?_⟩
    refine Library.filter_updateWhere fun line _ hselected => ?_
    rw [Bool.and_eq_true, beq_iff_eq] at hselected
    simp [(hf line).2.1, hselected.1, Ne.symm hother]
  | clear s => exact ⟨.of_mem hmem, linesOf_deleteLines hother⟩
  | delete s =>
    exact ⟨⟨invoice, List.mem_filter.mpr ⟨hmem, by simpa using hother⟩, rfl, id⟩,
      linesOf_deleteLines hother⟩
  | insert s line sources hinvoice hid hline hquantity hsources hkeys =>
    refine ⟨.of_mem hmem, ?_⟩
    exact linesOf_append (hline ▸ Ne.symm hother)
  | trans hfirst _ ih ih' =>
    obtain ⟨⟨invoice', hmem', heq', hsettled'⟩, hlines'⟩ := ih h hmem hother
    have hother' : invoice'.id ≠ invoiceId := heq' ▸ hother
    obtain ⟨⟨invoice'', hmem'', heq'', hsettled''⟩, hlines''⟩ :=
      ih' (hfirst.invariant h) hmem' hother'
    rw [heq'] at hlines''
    exact ⟨⟨invoice'', hmem'', heq''.trans heq', fun hs => hsettled'' (hsettled' hs)⟩,
      hlines''.trans hlines'⟩

end

/-! ## Steps -/

/-- The invoice a call has created. -/
def TimeInvoicePhase.invoice? : TimeInvoicePhase → Option Nat
  | .created _ _ _ invoiceId => some invoiceId
  | .failed invoiceId _ => some invoiceId
  | .returned invoiceId => some invoiceId
  | .raised invoiceId? _ => invoiceId?
  | _ => none

/-- The call, where the step is one of it. -/
def InvoiceOp.call? : InvoiceOp → Option Nat
  | .selectTime callId _ => some callId
  | .nextTransaction callId => some callId
  | _ => none

section

variable {words : InvoiceWords} {s : InvoiceState} {op : InvoiceOp} {invoiceId : Nat}

theorem put_move {result : Except Error InvoiceStore}
    (h : Ensures result (InvoiceMove invoiceId s.store)) :
    InvoiceMove invoiceId s.store (s.put result).store := by
  rcases result with error | store
  · exact .refl invoiceId s.store
  · exact h store rfl

/-- A transaction that may write the lines of an invoice only where it is a draft. -/
theorem put_move_draft {result : Except Error InvoiceStore}
    (h : Ensures result fun store => s.store.isDraft invoiceId = true ∧
      InvoiceMove invoiceId s.store store) :
    ∃ number, InvoiceMove number s.store (s.put result).store ∧
      (s.store.isDraft number = true ∨ number = s.store.nextId) := by
  rcases result with error | store
  · exact ⟨s.store.nextId, .refl _ _, .inr rfl⟩
  · obtain ⟨hdraft, hmove⟩ := h store rfl
    exact ⟨invoiceId, hmove, .inl hdraft⟩

variable (words) in
theorem nextTransaction_move (h : InvoiceInvariant s.store) (callId : Nat) :
    ∃ number, InvoiceMove number s.store (nextTransaction words s callId).store ∧
      ((s.calls callId).unfinished? = some number ∨ number = s.store.nextId) := by
  unfold nextTransaction
  split
  · split
    · exact ⟨s.store.nextId, .refl _ _, .inr rfl⟩
    · rename_i store invoiceId hcreated
      exact ⟨s.store.nextId, (createTeamInvoice_move words _ _ hcreated).2.2, .inr rfl⟩
  · rename_i call payRate groups invoiceId hphase
    refine ⟨invoiceId, ?_, .inl (by rw [hphase]; rfl)⟩
    split
    · rename_i store hwritten
      exact writeTracked_move h.keys call payRate groups store hwritten
    · split
      · exact .refl _ _
      · exact .refl _ _
  · rename_i invoiceId error hphase
    exact ⟨invoiceId, .delete s.store, .inl (by rw [hphase]; rfl)⟩
  · exact ⟨s.store.nextId, .refl _ _, .inr rfl⟩

variable (words) in
/-- **Every step is a move**, and where it meets the condition the lines it may write are those of a draft
or of no invoice. -/
theorem invoiceStep_move (h : InvoiceInvariant s.store) (op : InvoiceOp) :
    ∃ number, InvoiceMove number s.store (invoiceStep words s op).store ∧
      (op.onDraft s = true → s.store.isDraft number = true ∨ number = s.store.nextId) := by
  have hput : ∀ {result}, Ensures result (InvoiceMove s.store.nextId s.store) →
      ∃ number, InvoiceMove number s.store (s.put result).store ∧
        (op.onDraft s = true → s.store.isDraft number = true ∨ number = s.store.nextId) :=
    fun hmove => ⟨s.store.nextId, put_move hmove, fun _ => .inr rfl⟩
  have hdraft : ∀ {result invoiceId}, Ensures result (fun store => s.store.isDraft invoiceId = true ∧
      InvoiceMove invoiceId s.store store) →
      ∃ number, InvoiceMove number s.store (s.put result).store ∧
        (op.onDraft s = true → s.store.isDraft number = true ∨ number = s.store.nextId) := by
    intro result invoiceId hmove
    obtain ⟨number, hnumber, hcase⟩ := put_move_draft hmove
    exact ⟨number, hnumber, fun _ => hcase⟩
  cases op with
  | environment work owners projectNames =>
    exact ⟨s.store.nextId, .environment _ _ _ _, fun _ => .inr rfl⟩
  | createTeamInvoice new =>
    refine hput (ensures_map.mpr ?_)
    exact (createTeamInvoice_move words new).mono fun r hr => hr.2.2
  | selectTime callId call =>
    refine ⟨s.store.nextId, ?_, fun _ => .inr rfl⟩
    unfold invoiceStep
    dsimp only
    split
    · split
      · exact .refl _ _
      · exact .refl _ _
    · exact .refl _ _
  | nextTransaction callId =>
    obtain ⟨number, hmove, hcase⟩ := nextTransaction_move words h callId
    refine ⟨number, hmove, fun hon => ?_⟩
    rcases hcase with hunfinished | hfresh
    · have hall : (s.calls callId).unfinished?.all s.store.isDraft = true := hon
      rw [hunfinished] at hall
      exact .inl hall
    · exact .inr hfresh
  | submitTeamInvoice number userId => exact hput (submitTeamInvoice_move userId number)
  | updateTeamInvoiceDraft number userId update =>
    exact hdraft (updateTeamInvoiceDraft_move h.invoices.unique userId update)
  | deleteTeamInvoiceDraft number userId =>
    exact hdraft (deleteTeamInvoiceDraft_move h.invoices.unique userId)
  | recordTeamInvoicePayment number amount => exact hput (recordTeamInvoicePayment_move number amount)
  | voidTeamInvoice number => exact hput (voidTeamInvoice_move number)

/-! ## Calls -/

/-- How a step moves a call: it leaves it; it writes nothing and has no invoice; it goes on with its
invoice, and has not raised a `ValueError`; or it takes its invoice back. -/
inductive CallMove (s s' : InvoiceState) (callId : Nat) : Prop
  | same (h : s'.calls callId = s.calls callId)
  | without (hnone : (s'.calls callId).invoice? = none) (hstore : s'.store = s.store)
  | goes (invoiceId : Nat) (hinvoice : (s'.calls callId).invoice? = some invoiceId)
    (hbelow : (s.calls callId).invoice? = some invoiceId ∨ invoiceId < s'.store.nextId)
    (herror : ∀ number message, s'.calls callId ≠ .raised number (.valueError message))
  | back (invoiceId : Nat) (error : Error) (hphase : s'.calls callId = .raised (some invoiceId) error)
    (hbelow : (s.calls callId).invoice? = some invoiceId)
    (hstore : s'.store = s.store.deleteInvoice invoiceId)

theorem setCall_same (callId : Nat) (phase : TimeInvoicePhase) :
    (s.setCall callId phase).calls callId = phase := if_pos rfl

theorem setCall_other {callId number : Nat} (hne : number ≠ callId) (phase : TimeInvoicePhase) :
    (s.setCall callId phase).calls number = s.calls number := if_neg hne

theorem nextTransaction_call (callId : Nat) : CallMove s (nextTransaction words s callId) callId := by
  unfold nextTransaction
  split
  · rename_i call payRate groups hphase
    split
    · exact .without (by rw [setCall_same]; rfl) rfl
    · rename_i store invoiceId hcreated
      have hmove : Ensures (createForTime words s.store call) fun r =>
          r.2 = s.store.nextId ∧ r.1.nextId = s.store.nextId + 2 ∧
            InvoiceMove s.store.nextId s.store r.1 := createTeamInvoice_move words _
      obtain ⟨(hid : invoiceId = _), (hnext : store.nextId = _), _⟩ := hmove _ hcreated
      refine .goes invoiceId (by rw [setCall_same]; rfl) (.inr ?_) fun _ _ => ?_
      · have hbelow : invoiceId < store.nextId := by
          omega
        exact hbelow
      · rw [setCall_same]
        exact TimeInvoicePhase.noConfusion
  · rename_i call payRate groups invoiceId hphase
    have hof : (s.calls callId).invoice? = some invoiceId := by rw [hphase]; rfl
    split
    · refine .goes invoiceId (by rw [setCall_same]; rfl) (.inl hof) fun _ _ => ?_
      rw [setCall_same]
      exact TimeInvoicePhase.noConfusion
    · split
      · refine .goes invoiceId (by rw [setCall_same]; rfl) (.inl hof) fun _ _ => ?_
        rw [setCall_same]
        exact TimeInvoicePhase.noConfusion
      · rename_i error _ hcompensated
        refine .goes invoiceId (by rw [setCall_same]; rfl) (.inl hof) fun number message heq => ?_
        rw [setCall_same] at heq
        obtain ⟨_, rfl⟩ := TimeInvoicePhase.raised.inj heq
        cases hcompensated
  · rename_i invoiceId error hphase
    exact .back invoiceId error (setCall_same callId _) (by rw [hphase]; rfl) rfl
  · exact .same rfl

variable (words s) in
/-- **How a step moves the calls.** -/
theorem step_call (op : InvoiceOp) (callId : Nat) : CallMove s (invoiceStep words s op) callId := by
  have hput : ∀ result, (s.put result).calls = s.calls := by
    rintro (error | store)
    · rfl
    · rfl
  have hnext : ∀ number, number ≠ callId →
      (nextTransaction words s number).calls callId = s.calls callId := by
    intro number hne
    unfold nextTransaction
    split
    · split
      · exact setCall_other hne.symm _
      · exact setCall_other hne.symm _
    · split
      · exact setCall_other hne.symm _
      · split
        · exact setCall_other hne.symm _
        · exact setCall_other hne.symm _
    · exact setCall_other hne.symm _
    · rfl
  cases op with
  | selectTime number call =>
    unfold invoiceStep
    dsimp only
    split
    · split
      · by_cases hid : callId = number
        · subst hid
          exact .without (by rw [setCall_same]; rfl) rfl
        · exact .same (setCall_other hid _)
      · by_cases hid : callId = number
        · subst hid
          exact .without (by rw [setCall_same]; rfl) rfl
        · exact .same (setCall_other hid _)
    · exact .same rfl
  | nextTransaction number =>
    by_cases hid : number = callId
    · subst hid
      exact nextTransaction_call number
    · exact .same (hnext number hid)
  | environment work owners projectNames => exact .same rfl
  | createTeamInvoice new => exact .same (congrFun (hput _) callId)
  | submitTeamInvoice number userId => exact .same (congrFun (hput _) callId)
  | updateTeamInvoiceDraft number userId update => exact .same (congrFun (hput _) callId)
  | deleteTeamInvoiceDraft number userId => exact .same (congrFun (hput _) callId)
  | recordTeamInvoicePayment number amount => exact .same (congrFun (hput _) callId)
  | voidTeamInvoice number => exact .same (congrFun (hput _) callId)

/-- **A call writes nothing before it has an invoice.** -/
theorem step_without_invoice {callId : Nat} (hop : op.call? = some callId)
    (hnone : ((invoiceStep words s op).calls callId).invoice? = none) :
    (invoiceStep words s op).store = s.store := by
  cases op with
  | selectTime number call =>
    unfold invoiceStep
    dsimp only
    split
    · split
      · rfl
      · rfl
    · rfl
  | nextTransaction number =>
    obtain rfl : number = callId := Option.some.inj hop
    have hstep : invoiceStep words s (.nextTransaction number) = nextTransaction words s number := rfl
    rw [hstep] at hnone ⊢
    unfold nextTransaction at hnone ⊢
    split at hnone
    · split at hnone
      · rfl
      · rw [setCall_same] at hnone
        cases hnone
    · split at hnone
      · rw [setCall_same] at hnone
        cases hnone
      · split at hnone
        · rfl
        · rfl
    · rw [setCall_same] at hnone
      cases hnone
    · rfl
  | _ => cases hop

/-! ## Runs -/

/-- The invariant of a state: the store's, the ids of the calls are from the supply, and what a call took
back with a `ValueError` is gone. -/
structure CallInvariant (s : InvoiceState) : Prop where
  store : InvoiceInvariant s.store
  below : ∀ callId invoiceId, (s.calls callId).invoice? = some invoiceId → invoiceId < s.store.nextId
  undone : ∀ callId invoiceId message, s.calls callId = .raised (some invoiceId) (.valueError message) →
    ∀ invoice ∈ s.store.invoices, invoice.id ≠ invoiceId

theorem CallInvariant.step (h : CallInvariant s) (op : InvoiceOp) :
    CallInvariant (invoiceStep words s op) := by
  obtain ⟨_, hmove, _⟩ := invoiceStep_move words h.store op
  have hnext := hmove.fresh.1
  have hbelow : ∀ callId invoiceId, (s.calls callId).invoice? = some invoiceId →
      invoiceId < (invoiceStep words s op).store.nextId :=
    fun callId invoiceId hof => Nat.lt_of_lt_of_le (h.below callId invoiceId hof) hnext
  refine ⟨hmove.invariant h.store, ?_, ?_⟩
  · intro callId invoiceId hof
    rcases step_call words s op callId with hsame | ⟨hnone, _⟩ |
      ⟨number, hnumber, hcase, _⟩ | ⟨number, error, hphase, hold, _⟩
    · exact hbelow callId invoiceId (hsame ▸ hof)
    · rw [hnone] at hof
      cases hof
    · obtain rfl : number = invoiceId := Option.some.inj (hnumber.symm.trans hof)
      rcases hcase with hold | hlt
      · exact hbelow callId number hold
      · exact hlt
    · rw [hphase] at hof
      obtain rfl : number = invoiceId := Option.some.inj hof
      exact hbelow callId number hold
  · intro callId invoiceId message hraised invoice hinvoice
    rcases step_call words s op callId with hsame | ⟨hnone, _⟩ |
      ⟨_, _, _, hother⟩ | ⟨number, error, hphase, hold, hstore⟩
    · rw [hsame] at hraised
      -- an id that is gone does not come back: a new invoice takes a larger one
      rcases hmove.fresh.2 invoice hinvoice with ⟨old, hmem, heq⟩ | hfresh
      · exact heq ▸ h.undone callId invoiceId message hraised old hmem
      · have hlt := h.below callId invoiceId (by rw [hraised]; rfl)
        omega
    · rw [hraised] at hnone
      cases hnone
    · exact absurd hraised (hother _ _)
    · rw [hphase] at hraised
      obtain ⟨hnumber, _⟩ := TimeInvoicePhase.raised.inj hraised
      rw [hstore] at hinvoice
      have hkept := (List.mem_filter.mp hinvoice).2
      rw [Option.some.inj hnumber] at hkept
      simpa using hkept

theorem start_invariant (work : Database) (owners : List InvoiceOwner)
    (projectNames : List (Nat × String)) :
    CallInvariant (InvoiceState.start work owners projectNames) where
  store :=
    { invoices := .nil _ _
      lines := .nil _ _
      owned := fun _ h => nomatch h
      keys := List.nodup_nil
      held := fun _ h => nomatch h
      quantities := fun _ h => nomatch h }
  below := fun _ _ h => nomatch h
  undone := fun _ _ _ h => nomatch h

/-! ## Consistency -/

/-- The invoices that a segment or a manual entry is on. -/
def InvoiceStore.invoicesWith (s : InvoiceStore) (key : TimeSourceKey) : List TeamInvoice :=
  s.invoices.filter fun invoice =>
    s.sources.any fun source =>
      source.key == key && (s.linesOf invoice.id).any (·.id == source.lineId)

/-- The hundredths of an hour, of 36 seconds each, that are nearest to the seconds; of two the even number. -/
def RoundsHours (hundredths seconds : Int) : Prop :=
  (seconds - 36 * hundredths).natAbs < 18 ∨ (seconds - 36 * hundredths).natAbs = 18 ∧ hundredths % 2 = 0

theorem roundsHours_hoursHundredths (seconds : Int) : RoundsHours (hoursHundredths seconds) seconds := by
  unfold RoundsHours hoursHundredths
  dsimp only
  split <;> omega

/-- What holds of the invoiced time in every state. -/
structure Consistent (s : InvoiceState) : Prop where
  once : ∀ key, (s.store.invoicesWith key).length ≤ 1
  attached : ∀ source ∈ s.store.sources, ∃ line ∈ s.store.lines,
    line.id = source.lineId ∧ (s.store.getInvoice line.invoiceId).isSome
  undone : ∀ callId invoiceId message, s.calls callId = .raised (some invoiceId) (.valueError message) →
    s.store.getInvoice invoiceId = none ∧ s.store.linesOf invoiceId = []
  quantities : ∀ line ∈ s.store.lines, line.tracked →
    RoundsHours line.quantity (s.store.sourceSeconds line.id)

theorem length_le_one_of_forall_eq {α : Type} {rows : List α} (hnodup : rows.Nodup)
    (h : ∀ a ∈ rows, ∀ b ∈ rows, a = b) : rows.length ≤ 1 := by
  rcases rows with _ | ⟨a, _ | ⟨b, rest⟩⟩
  · exact Nat.zero_le 1
  · exact Nat.le_refl 1
  · have heq : a = b := h a List.mem_cons_self b (List.mem_cons_of_mem a List.mem_cons_self)
    rw [heq] at hnodup
    exact absurd List.mem_cons_self (List.nodup_cons.mp hnodup).1

theorem CallInvariant.consistent (h : CallInvariant s) : Consistent s where
  once := by
    intro key
    refine length_le_one_of_forall_eq ?_ fun a ha b hb => ?_
    · exact (h.store.invoices.unique.sublist List.filter_sublist).of_map _
    · obtain ⟨hmem, hsource⟩ := List.mem_filter.mp ha
      obtain ⟨hmem', hsource'⟩ := List.mem_filter.mp hb
      simp only [List.any_eq_true, Bool.and_eq_true, beq_iff_eq, InvoiceStore.linesOf,
        List.mem_filter] at hsource hsource'
      obtain ⟨source, hin, hkey, line, ⟨hline, hof⟩, hid⟩ := hsource
      obtain ⟨source', hin', hkey', line', ⟨hline', hof'⟩, hid'⟩ := hsource'
      -- one source for the key, one line for the source, one invoice for the line
      have hsame : source = source' := h.store.keys.eq hin hin' (hkey.trans hkey'.symm)
      have hsameLine : line = line' :=
        h.store.lines.unique.eq hline hline' (by rw [hid, hid', hsame])
      exact h.store.invoices.unique.eq hmem hmem' (by rw [← hof, ← hof', hsameLine])
  attached := by
    intro source hsource
    obtain ⟨line, hline, hid⟩ := h.store.held source hsource
    obtain ⟨invoice, hinvoice, heq⟩ := h.store.owned line hline
    refine ⟨line, hline, hid, ?_⟩
    have hget : s.store.getInvoice invoice.id = some invoice := h.store.invoices.unique.find?_eq hinvoice
    rw [← heq, hget]
    rfl
  undone := by
    intro callId invoiceId message hraised
    have hgone := h.undone callId invoiceId message hraised
    refine ⟨List.find?_eq_none.mpr fun invoice hinvoice => ?_,
      List.filter_eq_nil_iff.mpr fun line hline hof => ?_⟩
    · simpa using hgone invoice hinvoice
    · obtain ⟨invoice, hinvoice, heq⟩ := h.store.owned line hline
      exact hgone invoice hinvoice (heq.trans (beq_iff_eq.mp hof))
  quantities := by
    intro line hline htracked
    rw [h.store.quantities line hline htracked]
    exact roundsHours_hoursHundredths _

/-- The invoices that are settled in the first store: they still are, with the same lines and total. -/
def SettledStay (s s' : InvoiceStore) : Prop :=
  ∀ invoice ∈ s.invoices, invoice.status ≠ .draft →
    (∃ invoice' ∈ s'.invoices, invoice'.id = invoice.id ∧ invoice'.status ≠ .draft) ∧
      s'.linesOf invoice.id = s.linesOf invoice.id ∧ s'.totalOf invoice.id = s.totalOf invoice.id

theorem SettledStay.trans {s s' s'' : InvoiceStore} (h : SettledStay s s') (h' : SettledStay s' s'') :
    SettledStay s s'' := by
  intro invoice hmem hsettled
  obtain ⟨⟨invoice', hmem', heq', hsettled'⟩, hlines, htotal⟩ := h invoice hmem hsettled
  obtain ⟨⟨invoice'', hmem'', heq'', hsettled''⟩, hlines', htotal'⟩ := h' invoice' hmem' hsettled'
  rw [heq'] at hlines' htotal'
  exact ⟨⟨invoice'', hmem'', heq''.trans heq', hsettled''⟩, hlines'.trans hlines, htotal'.trans htotal⟩

/-- **A step that finds its invoice a draft** changes no settled one. -/
theorem step_settledStay (h : CallInvariant s) (hon : op.onDraft s = true) :
    SettledStay s.store (invoiceStep words s op).store := by
  obtain ⟨number, hmove, hcase⟩ := invoiceStep_move words h.store op
  intro invoice hmem hsettled
  have hother : invoice.id ≠ number := by
    rintro rfl
    rcases hcase hon with hdraft | hfresh
    · have hget : s.store.getInvoice invoice.id = some invoice := h.store.invoices.unique.find?_eq hmem
      rw [InvoiceStore.isDraft, hget] at hdraft
      exact hsettled (beq_iff_eq.mp hdraft)
    · have hbelow := h.store.invoices.below invoice hmem
      omega
  obtain ⟨⟨invoice', hmem', heq, hstays⟩, hlines⟩ := hmove.frame h.store hmem hother
  refine ⟨⟨invoice', hmem', heq, hstays hsettled⟩, hlines, ?_⟩
  unfold InvoiceStore.totalOf
  rw [hlines]

theorem run_settledStay {ops : List InvoiceOp} (h : CallInvariant s)
    (hguarded : Guarded (invoiceStep words) (fun s op => op.onDraft s = true) s ops) :
    SettledStay s.store (run (invoiceStep words) s ops).store := by
  induction ops generalizing s with
  | nil => exact fun invoice hmem hsettled => ⟨⟨invoice, hmem, rfl, hsettled⟩, rfl, rfl⟩
  | cons op ops ih =>
    obtain ⟨hon, hrest⟩ := hguarded
    exact (step_settledStay h hon).trans (ih (h.step op) hrest)

end

/-- Every run keeps the invariant. -/
theorem run_callInvariant (words : InvoiceWords) (work : Database) (owners : List InvoiceOwner)
    (projectNames : List (Nat × String)) (ops : List InvoiceOp) :
    CallInvariant (run (invoiceStep words) (InvoiceState.start work owners projectNames) ops) :=
  run_invariant CallInvariant (fun _ op h => h.step op) (start_invariant work owners projectNames) ops

/-- **Invoiced time is kept**: after every part of the run it is consistent, a call has written nothing
while it has no invoice, and what is settled then stays as it is to the end. -/
def InvoicesKept (words : InvoiceWords) (start : InvoiceState) (ops : List InvoiceOp) : Prop :=
  ∀ before after, ops = before ++ after →
    Consistent (run (invoiceStep words) start before) ∧
    (∀ op callId, op.call? = some callId →
      ((invoiceStep words (run (invoiceStep words) start before) op).calls callId).invoice? = none →
      (invoiceStep words (run (invoiceStep words) start before) op).store =
        (run (invoiceStep words) start before).store) ∧
    SettledStay (run (invoiceStep words) start before).store (run (invoiceStep words) start ops).store

/-- **Invoiced time is kept in every run** in which each call finds the invoice that it has created still a
draft when it writes the lines, and when it takes the invoice back. -/
theorem invoicesKept_run (words : InvoiceWords) (work : Database) (owners : List InvoiceOwner)
    (projectNames : List (Nat × String)) {ops : List InvoiceOp}
    (hguarded : Guarded (invoiceStep words) (fun s op => op.onDraft s = true)
      (InvoiceState.start work owners projectNames) ops) :
    InvoicesKept words (InvoiceState.start work owners projectNames) ops := by
  rintro before after rfl
  have hinv := run_callInvariant words work owners projectNames before
  refine ⟨hinv.consistent, fun op callId hop hnone => step_without_invoice hop hnone, ?_⟩
  rw [run_append]
  exact run_settledStay hinv (guarded_append.mp hguarded).2

/-! ## A member with an hour of work -/

/-- Upper case of ASCII names, and one UUID. -/
def plainWords : InvoiceWords where
  upper := fun text => String.ofList (text.toList.map Char.toUpper)
  uuidText := fun _ => "6f1c2a4e-0b57-4c1d-9a53-2f8f9f6f7a10"

/-- One member with a rate of 50.00 and one hour of work on one project. -/
def oneHour : InvoiceState :=
  InvoiceState.start
    { workSessions := [{ id := 10, userId := some 1, deviceId := 2, projectId := some 3, taskId := none,
                         status := .stopped, note := "", startedAt := 0, endedAt := some (seconds 3600),
                         createdAt := 0, updatedAt := 0 }]
      segments := [{ id := 11, sessionId := 10, startedAt := 0, endedAt := some (seconds 3600) }] }
    [{ id := 1, email := "ann@example.org", fullName := "Ann Hay", enabled := true, payRate := 5000 }]
    [(3, "Barn")]

def firstDay : TimeInvoice :=
  { userId := 1, issuedOn := 1, dueOn := 15, periodStart := 0, periodEnd := 0, projectId := none,
    currency := "USD", purchaseOrder := "", notes := "" }

/-- Two calls for the same hour: the second one takes its invoice back; the first invoice is edited,
submitted and voided. -/
theorem invoicesKept_run_twice :
    (run (invoiceStep plainWords) oneHour
      [.selectTime 0 firstDay, .selectTime 1 firstDay, .nextTransaction 0, .nextTransaction 1,
        .nextTransaction 0, .nextTransaction 1, .nextTransaction 1]).calls 1 =
      .raised (some 2) (.valueError "Some selected time was already invoiced") ∧
    InvoicesKept plainWords oneHour
      [.selectTime 0 firstDay, .selectTime 1 firstDay, .nextTransaction 0, .nextTransaction 1,
        .nextTransaction 0, .nextTransaction 1, .nextTransaction 1,
        .updateTeamInvoiceDraft 0 1
          { issuedOn := 1, dueOn := 30, purchaseOrder := "", notes := "late", description := none,
            quantity := none, unitPrice := none },
        .submitTeamInvoice 0 1, .voidTeamInvoice 0] :=
  ⟨by decide +kernel, invoicesKept_run plainWords _ _ _ (by decide +kernel)⟩

/-- The owner submits the placeholder before the call has written the lines: the submitted invoice had no
total, and then has one. -/
theorem invoicesKept_submitted :
    ¬ InvoicesKept plainWords oneHour
      [.selectTime 0 firstDay, .nextTransaction 0, .submitTeamInvoice 0 1, .nextTransaction 0] := by
  intro h
  have hstay := (h [.selectTime 0 firstDay, .nextTransaction 0, .submitTeamInvoice 0 1]
    [.nextTransaction 0] rfl).2.2
  have htotals : ∀ invoice ∈ (run (invoiceStep plainWords) oneHour
      [.selectTime 0 firstDay, .nextTransaction 0, .submitTeamInvoice 0 1]).store.invoices,
      invoice.status ≠ .draft →
      (run (invoiceStep plainWords) oneHour
        [.selectTime 0 firstDay, .nextTransaction 0, .submitTeamInvoice 0 1, .nextTransaction 0]).store.totalOf
          invoice.id =
      (run (invoiceStep plainWords) oneHour
        [.selectTime 0 firstDay, .nextTransaction 0, .submitTeamInvoice 0 1]).store.totalOf invoice.id :=
    fun invoice hmem hsettled => (hstay invoice hmem hsettled).2.2
  revert htotals
  decide +kernel

end Dayfinch
