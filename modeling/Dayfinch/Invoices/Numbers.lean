/-
# Dayfinch.Invoices.Numbers -- whether the number of a new invoice is free

`create_team_invoice` numbers an invoice by how many the member has that are dated in the same year. That
number is free as long as the invoices of a year are numbered up to their count (`Numbered`), and it is not
when the count goes back: a draft is deleted or dated into another year while a later one keeps its number.
Since a number shows only the initials and the first six characters of the member's id, another member may
have taken it as well.

A number is read from its end (`number_tail_inj`): the initials may contain anything, the year, the six
characters and the sequence contain no hyphen. `ProperWords` is what is asked of the six characters of a UUID
for that.
-/
import Dayfinch.Invoices.Consistency

namespace Dayfinch

open Library (run run_append run_invariant Guarded guarded_append updateWhere UniqueKey Ensures ensures_ite)
open Library.Text (truncate strip)
open Library.Calendar (yearOfDay daysBeforeYear epochOffset)

/-! ## What a number says -/

/-- The six characters that stand for a member. -/
def memberCode (words : InvoiceWords) (userId : Nat) : String := words.upper (truncate 6 (words.uuidText userId))

/-- The first six characters of a UUID are hexadecimal digits. -/
structure ProperWords (words : InvoiceWords) : Prop where
  code : ∀ userId, '-' ∉ (memberCode words userId).toList

/-- The end of a number, after the initials. -/
def numberTail (words : InvoiceWords) (userId : Nat) (year : Int) (sequence : Nat) : List Char :=
  '-' :: ((toString year).toList ++ '-' :: ((memberCode words userId).toList ++
    '-' :: (String.leftpad 4 '0' (toString sequence)).toList))

theorem invoiceNumber_toList (words : InvoiceWords) (owner : InvoiceOwner) (year : Int) (sequence : Nat) :
    (invoiceNumber words owner year sequence).toList =
      (initials words owner.label).toList ++ numberTail words owner.id year sequence := by
  simp [invoiceNumber, numberTail, memberCode]

/-- The number of an invoice shows this year and this sequence. -/
def TeamInvoice.shows (words : InvoiceWords) (invoice : TeamInvoice) (year : Int) (sequence : Nat) : Bool :=
  (numberTail words invoice.userId year sequence).isSuffixOf invoice.number.toList

theorem TeamInvoice.shows_iff {words : InvoiceWords} {invoice : TeamInvoice} {year : Int} {sequence : Nat} :
    invoice.shows words year sequence = true ↔
      ∃ initials, initials ++ numberTail words invoice.userId year sequence = invoice.number.toList :=
  List.isSuffixOf_iff_suffix

theorem not_mem_dash_of_digits {cs : List Char} (h : ∀ c ∈ cs, c.isDigit = true) : '-' ∉ cs :=
  fun hmem => absurd (h '-' hmem) (by decide)

theorem toString_toList_of_nonneg {year : Int} (h : 0 ≤ year) :
    (toString year).toList = (toString year.toNat).toList := by
  rw [Int.toString_eq_repr, Int.repr_eq_if, if_pos h]
  rfl

/-- **A number is read from its end.** -/
theorem number_tail_inj {words : InvoiceWords} (hwords : ProperWords words) {before before' : List Char}
    {userId userId' : Nat} {year year' : Int} {sequence sequence' : Nat} (hyear : 0 ≤ year) (hyear' : 0 ≤ year')
    (h : before ++ numberTail words userId year sequence = before' ++ numberTail words userId' year' sequence') :
    memberCode words userId = memberCode words userId' ∧ year = year' ∧ sequence = sequence' := by
  have hdigits : ∀ n : Nat, '-' ∉ (toString n).toList.reverse := fun n =>
    not_mem_dash_of_digits fun c hc => Library.Text.isDigit_of_mem_toString (List.mem_reverse.mp hc)
  have hpadded : ∀ n : Nat, '-' ∉ (String.leftpad 4 '0' (toString n)).toList.reverse := fun n =>
    not_mem_dash_of_digits fun c hc => Library.Text.isDigit_of_mem_leftpad (List.mem_reverse.mp hc)
  have hcode : ∀ id, '-' ∉ (memberCode words id).toList.reverse := fun id hmem =>
    hwords.code id (List.mem_reverse.mp hmem)
  have hreverse := congrArg List.reverse h
  simp only [numberTail, List.reverse_append, List.reverse_cons, List.append_assoc, List.singleton_append,
    toString_toList_of_nonneg hyear, toString_toList_of_nonneg hyear'] at hreverse
  obtain ⟨hsequence, hreverse⟩ :=
    Library.Text.split_at_separator (hpadded sequence) (hpadded sequence') hreverse
  obtain ⟨hmember, hreverse⟩ := Library.Text.split_at_separator (hcode userId) (hcode userId') hreverse
  obtain ⟨hyears, _⟩ :=
    Library.Text.split_at_separator (hdigits year.toNat) (hdigits year'.toNat) hreverse
  refine ⟨String.toList_inj.mp (List.reverse_inj.mp hmember), ?_, ?_⟩
  · have hnat : toString year.toNat = toString year'.toNat := String.toList_inj.mp (List.reverse_inj.mp hyears)
    have heq := Library.Text.leftpad_toString_inj (congrArg (String.leftpad 0 '0') hnat)
    omega
  · exact Library.Text.leftpad_toString_inj (String.toList_inj.mp (List.reverse_inj.mp hsequence))

/-! ## Years and counts -/

/-- The `COUNT(*)` of `create_team_invoice`. -/
def countedIn (userId : Nat) (year : Int) (rows : List TeamInvoice) : Nat :=
  (rows.filter fun invoice =>
    invoice.userId == userId && firstOfYear year ≤ invoice.issuedOn &&
      invoice.issuedOn < firstOfYear (year + 1)).length

theorem daysBeforeYear_mono {a b : Int} (h : a ≤ b) : daysBeforeYear a ≤ daysBeforeYear b := by
  unfold daysBeforeYear
  omega

theorem inYear_iff {year date : Int} :
    firstOfYear year ≤ date ∧ date < firstOfYear (year + 1) ↔ yearOf date = year := by
  have hspec := Library.Calendar.yearOfDay_spec (date + epochOffset)
  unfold firstOfYear yearOf
  constructor
  · rintro ⟨hfrom, hto⟩
    by_contra hne
    rcases Int.lt_or_lt_of_ne hne with hlt | hgt
    · have hmono := daysBeforeYear_mono (Int.add_one_le_of_lt hlt)
      omega
    · have hmono := daysBeforeYear_mono (Int.add_one_le_of_lt hgt)
      omega
  · rintro rfl
    omega

theorem countedIn_eq (userId : Nat) (year : Int) (rows : List TeamInvoice) :
    countedIn userId year rows =
      (rows.filter fun invoice => decide (invoice.userId = userId ∧ yearOf invoice.issuedOn = year)).length := by
  unfold countedIn
  congr 1
  refine List.filter_congr fun invoice _ => ?_
  have hyear : yearOf invoice.issuedOn = year ↔ _ := inYear_iff.symm
  rw [Bool.eq_iff_iff]
  simp only [Bool.and_eq_true, beq_iff_eq, decide_eq_true_eq, hyear, and_assoc]

/-! ## The invariant -/

/-- Every invoice shows a year, and a sequence that is at most the member's count of that year. -/
def Numbered (words : InvoiceWords) (rows : List TeamInvoice) : Prop :=
  ∀ invoice ∈ rows, ∃ year sequence, 0 ≤ year ∧ invoice.shows words year sequence = true ∧
    sequence ≤ countedIn invoice.userId year rows

/-- No invoice of `rest` shows the last number of the year that an invoice is dated in. -/
def NoneLast (words : InvoiceWords) (rows rest : List TeamInvoice) (invoice : TeamInvoice) : Prop :=
  ∀ other ∈ rest, other.userId = invoice.userId →
    other.shows words (yearOf invoice.issuedOn)
      (countedIn invoice.userId (yearOf invoice.issuedOn) rows) = false

instance (words : InvoiceWords) (rows rest : List TeamInvoice) (invoice : TeamInvoice) :
    Decidable (NoneLast words rows rest invoice) :=
  inferInstanceAs (Decidable (∀ other ∈ rest, _))

/-- The invoice keeps its number and the year it is dated in. -/
structure KeepsNumber (invoice invoice' : TeamInvoice) : Prop where
  userId : invoice'.userId = invoice.userId
  number : invoice'.number = invoice.number
  year : yearOf invoice'.issuedOn = yearOf invoice.issuedOn

section

variable {words : InvoiceWords} {rows rows' : List TeamInvoice}

theorem shows_congr {invoice invoice' : TeamInvoice} (huser : invoice'.userId = invoice.userId)
    (hnumber : invoice'.number = invoice.number) (year : Int) (sequence : Nat) :
    invoice'.shows words year sequence = invoice.shows words year sequence := by
  unfold TeamInvoice.shows
  rw [huser, hnumber]

theorem countedIn_keeps (h : List.Forall₂ KeepsNumber rows rows') (userId : Nat) (year : Int) :
    countedIn userId year rows' = countedIn userId year rows := by
  rw [countedIn_eq, countedIn_eq]
  induction h with
  | nil => rfl
  | cons hkeeps _ ih =>
    rw [List.filter_cons, List.filter_cons, hkeeps.userId, hkeeps.year]
    split
    · rw [List.length_cons, List.length_cons, ih]
    · exact ih

theorem Numbered.keeps (hn : Numbered words rows) (h : List.Forall₂ KeepsNumber rows rows') :
    Numbered words rows' := by
  intro invoice' hmem
  obtain ⟨invoice, hold, hkeeps⟩ := Library.exists_of_forall₂_right h hmem
  obtain ⟨year, sequence, hyear, hshows, hle⟩ := hn invoice hold
  refine ⟨year, sequence, hyear, ?_, ?_⟩
  · rw [shows_congr hkeeps.userId hkeeps.number]
    exact hshows
  · rw [countedIn_keeps h, hkeeps.userId]
    exact hle

theorem countedIn_append (userId : Nat) (year : Int) (rows added : List TeamInvoice) :
    countedIn userId year (rows ++ added) = countedIn userId year rows + countedIn userId year added := by
  unfold countedIn
  rw [List.filter_append, List.length_append]

/-- An invoice that is numbered by the count joins the others. -/
theorem Numbered.create (hn : Numbered words rows) {invoice : TeamInvoice} (hyear : 0 ≤ yearOf invoice.issuedOn)
    (hshows : invoice.shows words (yearOf invoice.issuedOn)
      (countedIn invoice.userId (yearOf invoice.issuedOn) rows + 1) = true) :
    Numbered words (rows ++ [invoice]) := by
  intro other hother
  rcases List.mem_append.mp hother with hold | hnew
  · obtain ⟨year, sequence, hyear, hshown, hle⟩ := hn other hold
    refine ⟨year, sequence, hyear, hshown, ?_⟩
    rw [countedIn_append]
    omega
  · rw [List.mem_singleton.mp hnew]
    refine ⟨_, _, hyear, hshows, ?_⟩
    have hone : countedIn invoice.userId (yearOf invoice.issuedOn) [invoice] = 1 := by
      rw [countedIn_eq, List.filter_cons_of_pos (by simp)]
      rfl
    rw [countedIn_append, hone]

/-- An invoice that leaves its year, where no other shows the last number of that year. -/
theorem Numbered.leave (hn : Numbered words rows) {invoice : TeamInvoice} {rest : List TeamInvoice}
    (hlast : NoneLast words rows rest invoice)
    (hrows : ∀ i ∈ rows', ∃ old ∈ rest, old ∈ rows ∧ i.userId = old.userId ∧ i.number = old.number)
    (hcount : ∀ userId year, countedIn userId year rows ≤ countedIn userId year rows' +
      if invoice.userId = userId ∧ yearOf invoice.issuedOn = year then 1 else 0) :
    Numbered words rows' := by
  intro i hi
  obtain ⟨old, hrest, hold, huser, hnumber⟩ := hrows i hi
  obtain ⟨year, sequence, hyear, hshows, hle⟩ := hn old hold
  refine ⟨year, sequence, hyear, ?_, ?_⟩
  · rw [shows_congr huser hnumber]
    exact hshows
  · have hafter := hcount old.userId year
    rw [huser]
    by_cases hleft : invoice.userId = old.userId ∧ yearOf invoice.issuedOn = year
    · obtain ⟨hsame, rfl⟩ := hleft
      have hnot := hlast old hrest hsame.symm
      have hne : sequence ≠ countedIn old.userId (yearOf invoice.issuedOn) rows := by
        rintro rfl
        rw [hsame, hshows] at hnot
        cases hnot
      rw [if_pos ⟨hsame, rfl⟩] at hafter
      omega
    · rw [if_neg hleft] at hafter
      omega

theorem countedIn_without (hunique : UniqueKey (·.id) rows) {invoice : TeamInvoice} (hmem : invoice ∈ rows)
    (userId : Nat) (year : Int) :
    countedIn userId year rows = countedIn userId year (rows.filter (·.id != invoice.id)) +
      if invoice.userId = userId ∧ yearOf invoice.issuedOn = year then 1 else 0 := by
  rw [countedIn_eq, countedIn_eq, hunique.length_filter_ne hmem]
  have hfilter : (rows.filter fun q => decide (q.id ≠ invoice.id)) = rows.filter (·.id != invoice.id) :=
    List.filter_congr fun q _ => by by_cases hid : q.id = invoice.id <;> simp [hid]
  rw [hfilter]
  congr 1
  simp

/-- A deletion. -/
theorem Numbered.delete (hn : Numbered words rows) (hunique : UniqueKey (·.id) rows) {invoice : TeamInvoice}
    (hmem : invoice ∈ rows) (hlast : NoneLast words rows (rows.filter (·.id != invoice.id)) invoice) :
    Numbered words (rows.filter (·.id != invoice.id)) :=
  hn.leave hlast (fun i hi => ⟨i, hi, List.mem_of_mem_filter hi, rfl, rfl⟩)
    fun userId year => (countedIn_without hunique hmem userId year).le

/-- A change of the date. -/
theorem Numbered.redate (hn : Numbered words rows) (hunique : UniqueKey (·.id) rows) {invoice : TeamInvoice}
    (hmem : invoice ∈ rows) {f : TeamInvoice → TeamInvoice} (hid : ∀ i, (f i).id = i.id)
    (huser : ∀ i, (f i).userId = i.userId) (hnumber : ∀ i, (f i).number = i.number)
    (hlast : yearOf (f invoice).issuedOn = yearOf invoice.issuedOn ∨ NoneLast words rows rows invoice) :
    Numbered words (updateWhere (·.id == invoice.id) f rows) := by
  rcases hlast with hsame | hlast
  · refine hn.keeps (Library.forall₂_updateWhere (fun i _ _ => ⟨rfl, rfl, rfl⟩) fun i hi hsel => ?_)
    rw [hunique.eq hi hmem (beq_iff_eq.mp hsel)]
    exact ⟨huser invoice, hnumber invoice, hsame⟩
  · refine hn.leave hlast (fun i hi => ?_) fun userId year => ?_
    · rcases Library.mem_updateWhere_cases hi with ⟨hold, _⟩ | ⟨old, hold, _, rfl⟩
      · exact ⟨i, hold, hold, rfl, rfl⟩
      · exact ⟨old, hold, hold, huser old, hnumber old⟩
    · rw [countedIn_without hunique hmem]
      have hsub : (rows.filter (·.id != invoice.id)).Sublist (updateWhere (·.id == invoice.id) f rows) := by
        have hrest : (updateWhere (·.id == invoice.id) f rows).filter (·.id != invoice.id) =
            rows.filter (·.id != invoice.id) := by
          refine Library.filter_updateWhere fun i _ hsel => ?_
          have heq : i.id = invoice.id := beq_iff_eq.mp hsel
          simp [hid, heq]
        rw [← hrest]
        exact List.filter_sublist
      have hle := (hsub.filter fun i => decide (i.userId = userId ∧ yearOf i.issuedOn = year)).length_le
      rw [← countedIn_eq, ← countedIn_eq] at hle
      omega

end

/-! ## What the transactions do to the invoices -/

section

variable {words : InvoiceWords} {s s' : InvoiceStore} {invoiceId : Nat}

theorem createTeamInvoice_invoices (new : NewInvoice) :
    Ensures (createTeamInvoice words s new) fun r => ∃ invoice, r.1.invoices = s.invoices ++ [invoice] ∧
      invoice.userId = new.userId ∧ invoice.issuedOn = new.issuedOn ∧
      invoice.shows words (yearOf new.issuedOn)
        (countedIn new.userId (yearOf new.issuedOn) s.invoices + 1) = true := by
  unfold createTeamInvoice
  refine ensures_raiseIf.bind fun _ _ => ?_
  refine ensures_raiseIf.bind fun _ _ => ?_
  split
  · simp
  · rename_i owner howner
    have hid : owner.id = new.userId := by
      have hfound := List.find?_some howner
      simp only [Bool.and_eq_true, beq_iff_eq] at hfound
      exact hfound.1
    dsimp only
    refine ensures_raiseIf.bind fun _ _ => ?_
    refine Ensures.bind (P := fun _ => True) (fun _ _ => trivial) fun quantity _ => ?_
    refine Ensures.bind (P := fun _ => True) (fun _ _ => trivial) fun unitPrice _ => ?_
    refine ensures_ite (fun _ => by simp) fun _ => ?_
    rw [Library.ensures_pure]
    refine ⟨_, rfl, rfl, rfl, TeamInvoice.shows_iff.mpr ⟨(initials words owner.label).toList, ?_⟩⟩
    rw [invoiceNumber_toList, hid]
    rfl

theorem ensures_numbered {x : Except Error InvoiceStore} (hn : Numbered words s.invoices)
    (h : Ensures x fun s' => List.Forall₂ KeepsNumber s.invoices s'.invoices) :
    Ensures x fun s' => Numbered words s'.invoices :=
  h.mono fun _ hkeeps => hn.keeps hkeeps

theorem submitTeamInvoice_keeps (number userId : Nat) :
    Ensures (submitTeamInvoice s number userId) fun s' => List.Forall₂ KeepsNumber s.invoices s'.invoices := by
  unfold submitTeamInvoice
  refine ensures_raiseIf.bind fun _ _ => ?_
  rw [Library.ensures_pure]
  exact Library.forall₂_updateWhere (fun _ _ _ => ⟨rfl, rfl, rfl⟩) fun _ _ _ => ⟨rfl, rfl, rfl⟩

theorem recordTeamInvoicePayment_keeps (number : Nat) (amount : Rat) :
    Ensures (recordTeamInvoicePayment s number amount) fun s' =>
      List.Forall₂ KeepsNumber s.invoices s'.invoices := by
  unfold recordTeamInvoicePayment
  refine ensures_raiseIf.bind fun _ _ => ?_
  split
  · simp
  · refine ensures_raiseIf.bind fun _ _ => ?_
    dsimp only
    refine ensures_raiseIf.bind fun _ _ => ?_
    refine Ensures.bind (P := fun _ => True) (fun _ _ => trivial) fun stored _ => ?_
    refine Ensures.bind (P := fun _ => True) (fun _ _ => trivial) fun paidAmount _ => ?_
    refine ensures_ite (fun _ => by simp) fun _ => ?_
    rw [Library.ensures_pure]
    exact Library.forall₂_updateWhere (fun _ _ _ => ⟨rfl, rfl, rfl⟩) fun _ _ _ => ⟨rfl, rfl, rfl⟩

theorem voidTeamInvoice_keeps (number : Nat) :
    Ensures (voidTeamInvoice s number) fun s' => List.Forall₂ KeepsNumber s.invoices s'.invoices := by
  unfold voidTeamInvoice
  refine ensures_raiseIf.bind fun _ _ => ?_
  rw [Library.ensures_pure]
  exact Library.forall₂_updateWhere (fun _ _ _ => ⟨rfl, rfl, rfl⟩) fun _ _ _ => ⟨rfl, rfl, rfl⟩

theorem updateManualLine_invoices (update : DraftUpdate) :
    Ensures (updateManualLine s invoiceId update) fun s' => s'.invoices = s.invoices := by
  unfold updateManualLine
  split
  · simp
  · split
    · simp
    · refine ensures_raiseIf.bind fun _ _ => ?_
      split
      · simp
      · refine ensures_raiseIf.bind fun _ _ => ?_
        dsimp only
        refine Ensures.bind (P := fun _ => True) (fun _ _ => trivial) fun storedQuantity _ => ?_
        refine Ensures.bind (P := fun _ => True) (fun _ _ => trivial) fun storedPrice _ => ?_
        refine ensures_ite (fun _ => by simp) fun _ => ?_
        refine ensures_raiseIf.bind fun _ _ => ?_
        simp

theorem foldlM_invoices {α : Type} {step : InvoiceStore → α → Except Error InvoiceStore}
    (hstep : ∀ s a, Ensures (step s a) fun s' => s'.invoices = s.invoices) (xs : List α) :
    Ensures (xs.foldlM step s) fun s' => s'.invoices = s.invoices := by
  induction xs generalizing s with
  | nil => simp
  | cons x xs ih =>
    rw [List.foldlM_cons]
    exact (hstep s x).bind fun s₁ h₁ => ih.mono fun s₂ h₂ => h₂.trans h₁

theorem insertSource_invoices (s : InvoiceStore) (source : TimeSource) :
    Ensures (insertSource s source) fun s' => s'.invoices = s.invoices := by
  unfold insertSource
  split <;> simp

theorem insertProjectTime_invoices (call : TimeInvoice) (payRate : Int) (s : InvoiceStore) (group : ProjectTime) :
    Ensures (insertProjectTime call payRate invoiceId s group) fun s' => s'.invoices = s.invoices := by
  unfold insertProjectTime
  dsimp only
  refine ensures_ite (fun _ => by simp) fun _ => ?_
  split
  · simp
  · refine ensures_ite (fun _ => by simp) fun _ => ?_
    refine ensures_ite (fun _ => by simp) fun _ => ?_
    refine ensures_ite (fun _ => by simp) fun _ => ?_
    exact foldlM_invoices insertSource_invoices _

theorem writeTracked_invoices (call : TimeInvoice) (payRate : Int) (groups : List ProjectTime) :
    Ensures (writeTracked s call payRate groups invoiceId) fun s' => s'.invoices = s.invoices := by
  unfold writeTracked
  refine (foldlM_invoices (insertProjectTime_invoices call payRate) groups).bind fun s₁ h₁ => ?_
  refine ensures_raiseIf.bind fun _ _ => ?_
  rw [Library.ensures_pure]
  exact h₁

end

/-! ## Steps -/

/-- An invoice may be taken out of the year it is dated in: it is the member's last of that year, or none is. -/
def mayLeave (words : InvoiceWords) (rows : List TeamInvoice) (invoice : TeamInvoice) : Prop :=
  NoneLast words rows (rows.filter (·.id != invoice.id)) invoice

/-- The operation leaves no invoice behind that shows a number to be given again: a draft is deleted, by its
owner or by a call that takes it back, only where no other invoice shows the last number of its year; it is
dated into another year only where no invoice does. Dates are not before the year 0. -/
def InvoiceOp.KeepsCount (words : InvoiceWords) (s : InvoiceState) : InvoiceOp → Prop
  | .createTeamInvoice new => 0 ≤ yearOf new.issuedOn
  | .nextTransaction callId =>
    match s.calls callId with
    | .selected call _ _ => 0 ≤ yearOf call.issuedOn
    | .failed invoiceId _ => ∀ invoice ∈ s.store.invoices, invoice.id = invoiceId →
        mayLeave words s.store.invoices invoice
    | _ => True
  | .updateTeamInvoiceDraft invoiceId userId update => ∀ invoice ∈ s.store.invoices,
      invoice.id = invoiceId → invoice.userId = userId → invoice.status = .draft →
        yearOf update.issuedOn = yearOf invoice.issuedOn ∨
          NoneLast words s.store.invoices s.store.invoices invoice
  | .deleteTeamInvoiceDraft invoiceId userId => ∀ invoice ∈ s.store.invoices,
      invoice.id = invoiceId → invoice.userId = userId → invoice.status = .draft →
        mayLeave words s.store.invoices invoice
  | _ => True

instance (words : InvoiceWords) (rows : List TeamInvoice) (invoice : TeamInvoice) :
    Decidable (mayLeave words rows invoice) :=
  inferInstanceAs (Decidable (NoneLast _ _ _ _))

instance (words : InvoiceWords) (s : InvoiceState) (op : InvoiceOp) : Decidable (op.KeepsCount words s) := by
  unfold InvoiceOp.KeepsCount
  cases op with
  | nextTransaction callId =>
      dsimp only
      split <;> infer_instance
  | _ => infer_instance

section

variable {words : InvoiceWords} {s : InvoiceState}

theorem put_numbered (hn : Numbered words s.store.invoices) {result : Except Error InvoiceStore}
    (h : Ensures result fun s' => Numbered words s'.invoices) : Numbered words (s.put result).store.invoices := by
  cases result with
  | error error => exact hn
  | ok store => exact h store rfl

theorem createTeamInvoice_numbered (hn : Numbered words s.store.invoices) {new : NewInvoice}
    (hyear : 0 ≤ yearOf new.issuedOn) :
    Ensures (createTeamInvoice words s.store new) fun r => Numbered words r.1.invoices := by
  refine (createTeamInvoice_invoices new).mono fun r hr => ?_
  obtain ⟨invoice, hrows, huser, hdate, hshows⟩ := hr
  rw [hrows]
  refine hn.create ?_ ?_
  · rw [hdate]
    exact hyear
  · rw [hdate, huser]
    exact hshows

/-- The one invoice that a draft's owner finds. -/
theorem draft_of_any {invoiceId userId : Nat}
    (h : ¬ s.store.invoices.any (fun invoice =>
      invoice.id == invoiceId && invoice.userId == userId && invoice.status == .draft) = false) :
    ∃ invoice ∈ s.store.invoices, invoice.id = invoiceId ∧ invoice.userId = userId ∧ invoice.status = .draft := by
  rw [Bool.not_eq_false, List.any_eq_true] at h
  obtain ⟨invoice, hmem, hfound⟩ := h
  simp only [Bool.and_eq_true, beq_iff_eq] at hfound
  exact ⟨invoice, hmem, hfound.1.1, hfound.1.2, hfound.2⟩

/-- **One step** keeps the invoices numbered. -/
theorem numbered_step (h : CallInvariant s) (hn : Numbered words s.store.invoices) {op : InvoiceOp}
    (hop : op.KeepsCount words s) : Numbered words (invoiceStep words s op).store.invoices := by
  have hunique := h.store.invoices.unique
  cases op with
  | environment work owners projectNames => exact hn
  | createTeamInvoice new =>
    refine put_numbered hn ?_
    rw [Library.ensures_map]
    exact createTeamInvoice_numbered hn hop
  | selectTime callId call =>
    simp only [invoiceStep]
    split
    · split <;> exact hn
    · exact hn
  | nextTransaction callId =>
    simp only [invoiceStep, nextTransaction]
    simp only [InvoiceOp.KeepsCount] at hop
    cases hphase : s.calls callId with
    | selected call payRate groups =>
      simp only [hphase] at hop ⊢
      cases hcreate : createForTime words s.store call with
      | error error => exact hn
      | ok r => exact createTeamInvoice_numbered hn hop r hcreate
    | created call payRate groups invoiceId =>
      simp only
      cases hwrite : writeTracked s.store call payRate groups invoiceId with
      | ok store =>
        show Numbered words store.invoices
        rw [writeTracked_invoices call payRate groups store hwrite]
        exact hn
      | error error =>
        simp only
        split <;> exact hn
    | failed invoiceId error =>
      simp only [hphase] at hop
      show Numbered words (s.store.invoices.filter (·.id != invoiceId))
      by_cases hpresent : ∃ invoice ∈ s.store.invoices, invoice.id = invoiceId
      · obtain ⟨invoice, hmem, rfl⟩ := hpresent
        exact hn.delete hunique hmem (hop invoice hmem rfl)
      · rw [List.filter_eq_self.mpr]
        · exact hn
        · intro invoice hmem
          simp only [bne_iff_ne]
          exact fun hid => hpresent ⟨invoice, hmem, hid⟩
    | idle => exact hn
    | returned invoiceId => exact hn
    | raised invoiceId error => exact hn
  | submitTeamInvoice invoiceId userId => exact put_numbered hn (ensures_numbered hn (submitTeamInvoice_keeps _ _))
  | updateTeamInvoiceDraft invoiceId userId update =>
    refine put_numbered hn ?_
    unfold updateTeamInvoiceDraft
    refine ensures_raiseIf.bind fun _ _ => ?_
    refine ensures_raiseIf.bind fun _ hfound => ?_
    refine (updateManualLine_invoices update).bind fun s₁ h₁ => ?_
    rw [Library.ensures_pure]
    obtain ⟨invoice, hmem, rfl, huser, hdraft⟩ := draft_of_any hfound
    show Numbered words (updateWhere _ _ s₁.invoices)
    rw [h₁]
    exact hn.redate hunique hmem (fun _ => rfl) (fun _ => rfl) (fun _ => rfl) (hop invoice hmem rfl huser hdraft)
  | deleteTeamInvoiceDraft invoiceId userId =>
    refine put_numbered hn ?_
    unfold deleteTeamInvoiceDraft
    refine ensures_raiseIf.bind fun _ hfound => ?_
    rw [Library.ensures_pure]
    obtain ⟨invoice, hmem, rfl, huser, hdraft⟩ := draft_of_any hfound
    exact hn.delete hunique hmem (hop invoice hmem rfl huser hdraft)
  | recordTeamInvoicePayment invoiceId amount =>
    exact put_numbered hn (ensures_numbered hn (recordTeamInvoicePayment_keeps _ _))
  | voidTeamInvoice invoiceId => exact put_numbered hn (ensures_numbered hn (voidTeamInvoice_keeps _))

theorem numbered_run (words : InvoiceWords) (work : Database) (owners : List InvoiceOwner)
    (projectNames : List (Nat × String)) {ops : List InvoiceOp}
    (hguarded : Guarded (invoiceStep words) (fun s op => op.KeepsCount words s)
      (InvoiceState.start work owners projectNames) ops) :
    Numbered words (run (invoiceStep words) (InvoiceState.start work owners projectNames) ops).store.invoices := by
  have hboth := Library.guarded_invariant
    (fun s : InvoiceState => CallInvariant s ∧ Numbered words s.store.invoices)
    (fun s op h hop => ⟨h.1.step op, numbered_step h.1 h.2 hop⟩)
    ⟨start_invariant work owners projectNames, fun _ h => nomatch h⟩ hguarded
  exact hboth.2

end

/-! ## New invoices -/

/-- The arguments of `create_team_invoice` are valid, but for the number. -/
structure InvoiceStore.Accepts (s : InvoiceStore) (new : NewInvoice) : Prop where
  dates : new.issuedOn ≤ new.dueOn
  year : 0 ≤ yearOf new.issuedOn
  description : strip new.description ≠ ""
  owner : ∃ owner ∈ s.owners, owner.id = new.userId ∧ owner.enabled = true
  quantity : 0 < new.quantity ∧ ∃ stored, toNumeric 12 new.quantity = .ok stored ∧ 0 < stored
  unitPrice : 0 ≤ new.unitPrice ∧ ∃ stored, toNumeric 14 new.unitPrice = .ok stored

/-- No invoice is of another member whose id begins with the same six characters. -/
def InvoiceStore.OwnCode (words : InvoiceWords) (s : InvoiceStore) (userId : Nat) : Prop :=
  ∀ invoice ∈ s.invoices, memberCode words invoice.userId = memberCode words userId → invoice.userId = userId

instance (words : InvoiceWords) (s : InvoiceStore) (userId : Nat) : Decidable (s.OwnCode words userId) :=
  inferInstanceAs (Decidable (∀ invoice ∈ s.invoices, _))

section

variable {words : InvoiceWords} {s : InvoiceStore} {new : NewInvoice}

/-- Valid arguments fail on a number that is taken, and on nothing else. -/
theorem createTeamInvoice_accepts (words : InvoiceWords) (h : s.Accepts new) :
    (∃ owner, owner.id = new.userId ∧ ∃ invoice ∈ s.invoices,
      invoice.number = invoiceNumber words owner (yearOf new.issuedOn)
        (countedIn new.userId (yearOf new.issuedOn) s.invoices + 1)) ∨
      ∃ r, createTeamInvoice words s new = .ok r := by
  obtain ⟨hpositive, quantity, hquantity, hstored⟩ := h.quantity
  obtain ⟨hprice, unitPrice, hunitPrice⟩ := h.unitPrice
  have hdates : ¬ (new.dueOn < new.issuedOn ∨ new.quantity ≤ 0 ∨ new.unitPrice < 0) := by
    rintro (hlt | hle | hlt)
    · exact absurd hlt (not_lt.mpr h.dates)
    · exact absurd hle (not_le.mpr hpositive)
    · exact absurd hlt (not_lt.mpr hprice)
  cases howner : s.owners.find? fun owner => owner.id == new.userId && owner.enabled with
  | none =>
    obtain ⟨owner, hmem, hid, henabled⟩ := h.owner
    have hnot := List.find?_eq_none.mp howner owner hmem
    simp [hid, henabled] at hnot
  | some owner =>
    have hfound := List.find?_some howner
    simp only [Bool.and_eq_true, beq_iff_eq] at hfound
    by_cases htaken : s.invoices.any (·.number == invoiceNumber words owner (yearOf new.issuedOn)
        (countedIn new.userId (yearOf new.issuedOn) s.invoices + 1)) = true
    · obtain ⟨invoice, hmem, hnumber⟩ := List.any_eq_true.mp htaken
      exact .inl ⟨owner, hfound.1, invoice, hmem, beq_iff_eq.mp hnumber⟩
    · right
      unfold countedIn at htaken
      have hfree := (raiseIf_eq_ok (m := "Invoice number or time source is already in use") (u := ())).mpr htaken
      unfold createTeamInvoice
      rw [(raiseIf_eq_ok (u := ())).mpr hdates, (raiseIf_eq_ok (u := ())).mpr h.description]
      simp only [howner, bind, Except.bind, hquantity, hunitPrice, hfree, if_neg (not_le.mpr hstored)]
      exact ⟨_, rfl⟩

/-- The number after the count is free where the invoices are numbered up to it. -/
theorem number_free (hwords : ProperWords words) (hn : Numbered words s.invoices) (hyear : 0 ≤ yearOf new.issuedOn)
    (hcode : s.OwnCode words new.userId) {owner : InvoiceOwner} (howner : owner.id = new.userId) :
    ∀ invoice ∈ s.invoices, invoice.number ≠ invoiceNumber words owner (yearOf new.issuedOn)
      (countedIn new.userId (yearOf new.issuedOn) s.invoices + 1) := by
  intro invoice hmem heq
  obtain ⟨year, sequence, hshown, hshows, hle⟩ := hn invoice hmem
  obtain ⟨before, hbefore⟩ := TeamInvoice.shows_iff.mp hshows
  rw [heq, invoiceNumber_toList, howner] at hbefore
  obtain ⟨hmember, rfl, rfl⟩ := number_tail_inj hwords hshown hyear hbefore
  rw [hcode invoice hmem hmember] at hle
  omega

end

/-- **A new invoice finds its number free**, in every run that leaves no invoice behind with a number to be
given again, if the member shares the six characters with no other whose invoices are there. -/
theorem createTeamInvoice_succeeds_run (words : InvoiceWords) (hwords : ProperWords words) (work : Database)
    (owners : List InvoiceOwner) (projectNames : List (Nat × String)) {ops : List InvoiceOp}
    (hguarded : Guarded (invoiceStep words) (fun s op => op.KeepsCount words s)
      (InvoiceState.start work owners projectNames) ops) (new : NewInvoice)
    (haccepts : (run (invoiceStep words) (InvoiceState.start work owners projectNames) ops).store.Accepts new)
    (hcode : (run (invoiceStep words) (InvoiceState.start work owners projectNames) ops).store.OwnCode words
      new.userId) :
    (∀ owner : InvoiceOwner, owner.id = new.userId →
      ∀ invoice ∈ (run (invoiceStep words) (InvoiceState.start work owners projectNames) ops).store.invoices,
        invoice.number ≠ invoiceNumber words owner (yearOf new.issuedOn)
          (countedIn new.userId (yearOf new.issuedOn)
            (run (invoiceStep words) (InvoiceState.start work owners projectNames) ops).store.invoices + 1)) ∧
    ∃ r, createTeamInvoice words
      (run (invoiceStep words) (InvoiceState.start work owners projectNames) ops).store new = .ok r := by
  have hn := numbered_run words work owners projectNames hguarded
  refine ⟨fun owner howner => number_free hwords hn haccepts.year hcode howner, ?_⟩
  rcases createTeamInvoice_accepts words haccepts with ⟨owner, howner, invoice, hmem, htaken⟩ | hok
  · exact absurd htaken (number_free hwords hn haccepts.year hcode howner invoice hmem)
  · exact hok

/-! ## Three invoices of a year -/

def annHay : InvoiceOwner where
  id := 1
  email := "ann@example.org"
  fullName := "Ann Hay"
  enabled := true
  payRate := 5000

/-- An invoice of member 1 for one piece at 10.00. -/
def onePiece (issuedOn : Int) : NewInvoice where
  userId := 1
  issuedOn := issuedOn
  dueOn := issuedOn + 14
  description := "Fence"
  quantity := 1
  unitPrice := 10
  currency := "USD"
  purchaseOrder := ""
  notes := ""

theorem accepts_onePiece {s : InvoiceStore} (howner : ∃ owner ∈ s.owners, owner.id = 1 ∧ owner.enabled = true) :
    s.Accepts (onePiece 3) where
  dates := by decide
  year := by decide +kernel
  description := by decide +kernel
  owner := howner
  quantity := ⟨by decide, 100, by decide +kernel, by decide⟩
  unitPrice := ⟨by decide, 1000, by decide +kernel⟩

theorem properWords_plainWords : ProperWords plainWords where
  code := fun _ => by
    show '-' ∉ (memberCode plainWords 0).toList
    decide +kernel

/-- The last draft is deleted, and the third invoice takes its number. -/
theorem createTeamInvoice_succeeds_run_last :
    ∃ r, createTeamInvoice plainWords (run (invoiceStep plainWords) oneHour
      [.createTeamInvoice (onePiece 1), .createTeamInvoice (onePiece 2), .deleteTeamInvoiceDraft 2 1]).store
        (onePiece 3) = .ok r :=
  (createTeamInvoice_succeeds_run plainWords properWords_plainWords _ _ _ (by decide +kernel) (onePiece 3)
    (accepts_onePiece (by decide +kernel)) (by decide +kernel)).2

/-- **A number is given twice**: the first of two drafts is deleted, and the next invoice would have the
number of the second. -/
theorem createTeamInvoice_collides :
    ¬ ∀ (words : InvoiceWords), ProperWords words →
      ∀ (work : Database) (owners : List InvoiceOwner) (projectNames : List (Nat × String))
        (ops : List InvoiceOp) (new : NewInvoice),
      (run (invoiceStep words) (InvoiceState.start work owners projectNames) ops).store.Accepts new →
        ∃ r, createTeamInvoice words
          (run (invoiceStep words) (InvoiceState.start work owners projectNames) ops).store new = .ok r := by
  intro h
  obtain ⟨r, hr⟩ := h plainWords properWords_plainWords {}
    [annHay] []
    [.createTeamInvoice (onePiece 1), .createTeamInvoice (onePiece 2), .deleteTeamInvoiceDraft 0 1] (onePiece 3)
    (accepts_onePiece (by decide +kernel))
  have hrefused : (createTeamInvoice plainWords (run (invoiceStep plainWords)
      (InvoiceState.start {} [annHay] [])
      [.createTeamInvoice (onePiece 1), .createTeamInvoice (onePiece 2), .deleteTeamInvoiceDraft 0 1]).store
        (onePiece 3)).toOption.isSome = false := by decide +kernel
  rw [hr] at hrefused
  cases hrefused

end Dayfinch
