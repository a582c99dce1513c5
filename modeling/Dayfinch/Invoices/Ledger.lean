/-
# Dayfinch.Invoices.Ledger -- what the payments of an invoice add up to

`record_team_invoice_payment` compares in full precision and stores in two decimals. A total is a sum of
products, so it has four decimals; the payment's amount and the paid amount are rounded to cents after the
comparison. Where the sum keeps all digits of the amount the stored sums agree (`paidAmount_after`), but what is
compared is not what is stored: a total that is no whole number of cents is never reached by payments in cents,
and a payment that falls short of the balance by at most half a cent is stored as if it did not.

`Payable`, `FewDecimals` and `NotJustShort` are the conditions. Under them the ledger is exact in every state
(`ledger_run`).
-/
import Mathlib.Tactic.Linarith
import Mathlib.Tactic.FieldSimp
import Mathlib.Tactic.Ring
import Dayfinch.Invoices.Consistency

namespace Dayfinch

open Library (run run_append Guarded updateWhere UniqueKey decimal28 decimal28_eq)

/-! ## Payments -/

/-- `team_invoice_payments`; the amount is in hundredths. -/
structure TeamInvoicePayment where
  invoiceId : Nat
  amount : Int
  deriving DecidableEq, Repr

/-- The invoices and their payments. -/
structure Ledger where
  store : InvoiceStore
  payments : List TeamInvoicePayment := []

namespace Ledger

/-- `record_team_invoice_payment`, with the payment's own row. -/
def recordPayment (l : Ledger) (invoiceId : Nat) (amount : Rat) : Except Error Ledger := do
  let store ← recordTeamInvoicePayment l.store invoiceId amount
  let stored ← toNumeric 14 amount
  return { store, payments := l.payments ++ [⟨invoiceId, stored⟩] }

/-- One call; one that raises changes nothing. -/
def step (l : Ledger) (call : Nat × Rat) : Ledger :=
  match l.recordPayment call.1 call.2 with
  | .ok l' => l'
  | .error _ => l

/-- The stored amounts of an invoice's payments. -/
def paidOf (l : Ledger) (invoiceId : Nat) : Int :=
  ((l.payments.filter (·.invoiceId == invoiceId)).map (·.amount)).sum

end Ledger

/-! ## Rounding -/

theorem roundHalfAway_of_nonneg {x : Rat} (h : 0 ≤ x) : roundHalfAway x = ⌊x + 1 / 2⌋ := if_pos h

theorem roundHalfAway_intCast (n : Int) : roundHalfAway n = n := by
  unfold roundHalfAway
  split
  · rw [Int.floor_eq_iff]
    constructor <;> linarith
  · have hfloor : ⌊-(n : Rat) + 1 / 2⌋ = -n := by
      rw [Int.floor_eq_iff]
      constructor <;> push_cast <;> linarith
    rw [hfloor, neg_neg]

/-- Whole cents that are there already do not matter for the rounding. -/
theorem roundHalfAway_add {n : Int} {x : Rat} (hn : 0 ≤ n) (hx : 0 ≤ x) :
    roundHalfAway (n + x) = n + roundHalfAway x := by
  have hcast : (0 : Rat) ≤ n := by exact_mod_cast hn
  rw [roundHalfAway_of_nonneg (by linarith), roundHalfAway_of_nonneg hx, add_assoc, Int.floor_intCast_add]

/-- Rounding does not pass a whole number. -/
theorem roundHalfAway_le {n : Int} {x : Rat} (hx : 0 ≤ x) (h : x ≤ n) : roundHalfAway x ≤ n := by
  rw [roundHalfAway_of_nonneg hx]
  have hlt : ⌊x + 1 / 2⌋ < n + 1 := by
    rw [Int.floor_lt]
    push_cast
    linarith
  omega

/-- It reaches one from at most a half below. -/
theorem roundHalfAway_eq_iff {n : Int} {x : Rat} (hx : 0 ≤ x) (h : x ≤ n) :
    roundHalfAway x = n ↔ n - x ≤ 1 / 2 := by
  constructor
  · intro heq
    rw [roundHalfAway_of_nonneg hx, Int.floor_eq_iff] at heq
    linarith [heq.1]
  · intro hhalf
    rw [roundHalfAway_of_nonneg hx, Int.floor_eq_iff]
    constructor <;> linarith

theorem toNumeric_eq_ok {precision : Nat} {x : Rat} {cents : Int} :
    toNumeric precision x = .ok cents ↔
      cents = roundHalfAway (x * 100) ∧ cents.natAbs < 10 ^ precision := by
  unfold toNumeric
  dsimp only
  constructor
  · intro h
    split at h
    · cases h
      exact ⟨rfl, by assumption⟩
    · cases h
  · rintro ⟨rfl, hlt⟩
    rw [if_pos hlt]

/-! ## One payment -/

/-- A payment of whole cents. -/
def payCents (invoiceId : Nat) (cents : Int) : Nat × Rat := (invoiceId, (cents : Rat) / 100)

/-- What is left to pay of an invoice. -/
def InvoiceStore.balance (s : InvoiceStore) (invoiceId : Nat) (invoice : TeamInvoice) : Rat :=
  (s.totalOf invoiceId : Rat) / 10000 - (invoice.paidAmount : Rat) / 100

/-- An invoice that takes payments. -/
def TeamInvoice.isPayable (invoice : TeamInvoice) : Prop :=
  invoice.status = .submitted ∨ invoice.status = .partiallyPaid

/-- The invoice after a payment. -/
def TeamInvoice.afterPayment (invoice : TeamInvoice) (paidAmount : Int) (complete : Prop) [Decidable complete] :
    TeamInvoice :=
  { invoice with
    paidAmount
    status := if complete then .paid else .partiallyPaid }

/-- A payment that is accepted. -/
structure Ledger.Accepted (l : Ledger) (invoiceId : Nat) (amount : Rat) (invoice : TeamInvoice)
    (stored paidAmount : Int) : Prop where
  positive : 0 < amount
  found : l.store.getInvoice invoiceId = some invoice
  status : invoice.isPayable
  within : amount ≤ decimal28 (l.store.balance invoiceId invoice)
  stored_eq : toNumeric 14 amount = .ok stored
  paid_eq : toNumeric 14 (decimal28 ((invoice.paidAmount : Rat) / 100 + amount)) = .ok paidAmount
  check : 0 < stored

section

variable {l l' : Ledger} {invoiceId : Nat} {amount : Rat}

/-- The spec of `record_team_invoice_payment`. -/
theorem recordPayment_eq_ok :
    l.recordPayment invoiceId amount = .ok l' ↔
      ∃ invoice stored paidAmount, l.Accepted invoiceId amount invoice stored paidAmount ∧
        l' =
          { store :=
              { l.store with
                invoices := updateWhere (·.id == invoiceId)
                  (·.afterPayment paidAmount
                    (decimal28 ((invoice.paidAmount : Rat) / 100 + amount) =
                      (l.store.totalOf invoiceId : Rat) / 10000))
                  l.store.invoices }
            payments := l.payments ++ [⟨invoiceId, stored⟩] } := by
  constructor
  · intro h
    obtain ⟨store, hstore, h⟩ := Library.bind_eq_ok.mp h
    obtain ⟨stored, hstored, h⟩ := Library.bind_eq_ok.mp h
    unfold recordTeamInvoicePayment at hstore
    obtain ⟨_, hpositive, hstore⟩ := Library.bind_eq_ok.mp hstore
    split at hstore
    · cases hstore
    · rename_i invoice hfound
      obtain ⟨_, hstatus, hstore⟩ := Library.bind_eq_ok.mp hstore
      dsimp only at hstore
      obtain ⟨_, hwithin, hstore⟩ := Library.bind_eq_ok.mp hstore
      obtain ⟨stored', hstored', hstore⟩ := Library.bind_eq_ok.mp hstore
      obtain ⟨paidAmount, hpaid, hstore⟩ := Library.bind_eq_ok.mp hstore
      obtain rfl := Except.ok.inj (hstored.symm.trans hstored')
      split at hstore
      · cases hstore
      · rename_i hcheck
        refine ⟨invoice, stored, paidAmount, ⟨?_, hfound, ?_, ?_, hstored, hpaid, not_le.mp hcheck⟩, ?_⟩
        · exact not_le.mp (raiseIf_eq_ok.mp hpositive)
        · have hnot := raiseIf_eq_ok.mp hstatus
          by_contra hneither
          exact hnot ⟨fun h => hneither (.inl h), fun h => hneither (.inr h)⟩
        · exact not_lt.mp (raiseIf_eq_ok.mp hwithin)
        · rw [← Except.ok.inj h, ← Except.ok.inj hstore]
          rfl
  · rintro ⟨invoice, stored, paidAmount, h, rfl⟩
    refine Library.bind_eq_ok.mpr ⟨_, ?_, Library.bind_eq_ok.mpr ⟨stored, h.stored_eq, rfl⟩⟩
    have hstatus : ¬ (invoice.status ≠ .submitted ∧ invoice.status ≠ .partiallyPaid) := by
      rintro ⟨hsubmitted, hpartially⟩
      exact h.status.elim hsubmitted hpartially
    unfold recordTeamInvoicePayment
    refine Library.bind_eq_ok.mpr ⟨(), raiseIf_eq_ok.mpr (not_le.mpr h.positive), ?_⟩
    simp only [h.found]
    refine Library.bind_eq_ok.mpr ⟨(), raiseIf_eq_ok.mpr hstatus, ?_⟩
    refine Library.bind_eq_ok.mpr ⟨(), raiseIf_eq_ok.mpr (not_lt.mpr h.within), ?_⟩
    refine Library.bind_eq_ok.mpr ⟨stored, h.stored_eq, ?_⟩
    refine Library.bind_eq_ok.mpr ⟨paidAmount, h.paid_eq, ?_⟩
    rw [if_neg (not_le.mpr h.check)]
    rfl

/-- A call is accepted or changes nothing. -/
theorem Ledger.step_cases (l : Ledger) (call : Nat × Rat) :
    l.step call = l ∨ l.recordPayment call.1 call.2 = .ok (l.step call) := by
  unfold Ledger.step
  cases l.recordPayment call.1 call.2 with
  | error error => exact .inl rfl
  | ok l' => exact .inr rfl

theorem step_of_ok {call : Nat × Rat} (h : l.recordPayment call.1 call.2 = .ok l') : l.step call = l' := by
  unfold Ledger.step
  rw [h]

theorem getInvoice_after {s : InvoiceStore} {id : Nat} {paidAmount : Int} {complete : Prop}
    [Decidable complete] (invoiceId : Nat) :
    ({ s with invoices := updateWhere (·.id == id) (·.afterPayment paidAmount complete) s.invoices } :
      InvoiceStore).getInvoice invoiceId =
      (s.getInvoice invoiceId).map fun invoice =>
        if invoice.id == id then invoice.afterPayment paidAmount complete else invoice := by
  have hkey : ∀ r : TeamInvoice, ((r.afterPayment paidAmount complete).id == invoiceId) = (r.id == invoiceId) :=
    fun _ => rfl
  exact Library.find?_updateWhere hkey s.invoices

theorem id_of_getInvoice {s : InvoiceStore} {invoice : TeamInvoice} (h : s.getInvoice invoiceId = some invoice) :
    invoice.id = invoiceId := by
  have hfound := List.find?_some h
  simpa using hfound

/-- The balance is exact, in any total that a column of cents can hold. -/
theorem decimal28_balance {s : InvoiceStore} {invoice : TeamInvoice}
    (h : |s.totalOf invoiceId - 100 * invoice.paidAmount| < 10 ^ 28) :
    decimal28 (s.balance invoiceId invoice) = s.balance invoiceId invoice := by
  refine decimal28_eq (n := s.totalOf invoiceId - 100 * invoice.paidAmount) (k := 4) ?_ h
  rw [InvoiceStore.balance]
  push_cast
  ring

/-- **What is stored**: the paid amount grows by the amount of the payment's row, where the sum has no more digits
than it keeps. -/
theorem paidAmount_after {invoice : TeamInvoice} {stored paidAmount : Int}
    (h : l.Accepted invoiceId amount invoice stored paidAmount) (hpaid : 0 ≤ invoice.paidAmount)
    (hexact : decimal28 ((invoice.paidAmount : Rat) / 100 + amount) = (invoice.paidAmount : Rat) / 100 + amount) :
    paidAmount = invoice.paidAmount + stored := by
  have hamount : 0 ≤ amount * 100 := by
    have := h.positive
    linarith
  rw [(toNumeric_eq_ok.mp h.stored_eq).1, (toNumeric_eq_ok.mp h.paid_eq).1, hexact, ← roundHalfAway_add hpaid hamount]
  congr 1
  ring

end

/-! ## The conditions -/

/-- The total is a positive number of whole cents that the column holds. -/
structure InvoiceStore.Payable (s : InvoiceStore) (invoiceId : Nat) : Prop where
  positive : 0 < s.totalOf invoiceId
  cents : 100 ∣ s.totalOf invoiceId
  small : s.totalOf invoiceId < 10 ^ 16

/-- At most 15 decimals. -/
def FewDecimals (amount : Rat) : Prop := ∃ n : Int, amount * 10 ^ 15 = n

/-- The call does not pay an invoice short of its balance by half a cent or less. -/
def Ledger.NotJustShort (l : Ledger) (invoiceId : Nat) (call : Nat × Rat) : Prop :=
  call.1 = invoiceId → ∀ invoice, l.store.getInvoice invoiceId = some invoice →
    ¬ (0 < l.store.balance invoiceId invoice - call.2 ∧
      l.store.balance invoiceId invoice - call.2 ≤ 1 / 200)

/-- The ledger of an invoice is exact: what is paid is what the payments add up to and at most the total, the
status is paid exactly at the total, and a balance can be paid in whole cents. -/
structure Ledger.Exact (l : Ledger) (invoiceId : Nat) (invoice : TeamInvoice) : Prop where
  sum : invoice.paidAmount = l.paidOf invoiceId
  within : invoice.paidAmount * 100 ≤ l.store.totalOf invoiceId
  paid : invoice.status = .paid ↔ invoice.paidAmount * 100 = l.store.totalOf invoiceId
  reaches : invoice.isPayable → 0 < l.store.balance invoiceId invoice →
    ∃ cents : List Int, (∀ c ∈ cents, 0 < c) ∧
      ((run Ledger.step l (cents.map (payCents invoiceId))).store.getInvoice invoiceId).map
        (·.status) = some .paid

/-! ## The invariant -/

/-- What holds of an invoice that was submitted, and of its payments. -/
structure LedgerInvariant (l : Ledger) (invoiceId : Nat) (invoice : TeamInvoice) : Prop where
  found : l.store.getInvoice invoiceId = some invoice
  nonneg : 0 ≤ invoice.paidAmount
  sum : invoice.paidAmount = l.paidOf invoiceId
  within : invoice.paidAmount * 100 ≤ l.store.totalOf invoiceId
  paid : invoice.status = .paid ↔ invoice.paidAmount * 100 = l.store.totalOf invoiceId

section

variable {l l' : Ledger} {invoiceId : Nat} {invoice : TeamInvoice}

theorem paidOf_append (payments : List TeamInvoicePayment) (store : InvoiceStore) (id : Nat) (stored : Int) :
    ({ store, payments := payments ++ [⟨id, stored⟩] } : Ledger).paidOf invoiceId =
      ({ store, payments } : Ledger).paidOf invoiceId + if id = invoiceId then stored else 0 := by
  unfold Ledger.paidOf
  simp only [List.filter_append, List.map_append, List.sum_append]
  congr 1
  by_cases hid : id = invoiceId <;> simp [hid]

/-- The total in cents. -/
theorem InvoiceStore.Payable.total {s : InvoiceStore} (h : s.Payable invoiceId) :
    ∃ cents : Int, s.totalOf invoiceId = 100 * cents ∧ 0 < cents ∧ cents < 10 ^ 14 := by
  obtain ⟨cents, hcents⟩ := h.cents
  have hpositive := h.positive
  have hsmall := h.small
  exact ⟨cents, hcents, by omega, by omega⟩

/-- The sum keeps all digits of an amount of few decimals. -/
theorem LedgerInvariant.exact (h : LedgerInvariant l invoiceId invoice) (hpayable : l.store.Payable invoiceId)
    {amount : Rat} {stored paidAmount : Int}
    (haccepted : l.Accepted invoiceId amount invoice stored paidAmount) (hfew : FewDecimals amount) :
    amount ≤ l.store.balance invoiceId invoice ∧
      decimal28 ((invoice.paidAmount : Rat) / 100 + amount) = (invoice.paidAmount : Rat) / 100 + amount := by
  have hsmall := hpayable.small
  have hpaid := h.nonneg
  have hbelow := h.within
  have hpositive := haccepted.positive
  have hwithin := haccepted.within
  rw [decimal28_balance (abs_lt.mpr (by omega))] at hwithin
  obtain ⟨n, hn⟩ := hfew
  refine ⟨hwithin, decimal28_eq (n := invoice.paidAmount * 10 ^ 13 + n) (k := 15) ?_ ?_⟩
  · rw [add_mul, hn]
    push_cast
    ring
  · have hpos : (0 : Rat) ≤ n := by
      rw [← hn]
      positivity
    have hnpos : 0 ≤ n := by exact_mod_cast hpos
    have htotal : (l.store.totalOf invoiceId : Rat) < 10 ^ 16 := by exact_mod_cast hsmall
    have hle : ((invoice.paidAmount * 10 ^ 13 + n : Int) : Rat) < 10 ^ 28 := by
      rw [InvoiceStore.balance] at hwithin
      push_cast
      linarith
    have hint : invoice.paidAmount * 10 ^ 13 + n < 10 ^ 28 := by exact_mod_cast hle
    rw [abs_of_nonneg (by positivity)]
    exact hint

/-- A payment of the invoice keeps the invariant. -/
theorem LedgerInvariant.pay (h : LedgerInvariant l invoiceId invoice) (hpayable : l.store.Payable invoiceId)
    {amount : Rat} {stored paidAmount : Int}
    (haccepted : l.Accepted invoiceId amount invoice stored paidAmount) (hfew : FewDecimals amount)
    (hnot : l.NotJustShort invoiceId (invoiceId, amount)) :
    paidAmount * 100 ≤ l.store.totalOf invoiceId ∧
      (decimal28 ((invoice.paidAmount : Rat) / 100 + amount) = (l.store.totalOf invoiceId : Rat) / 10000 ↔
        paidAmount * 100 = l.store.totalOf invoiceId) := by
  obtain ⟨cents, htotal, _, _⟩ := hpayable.total
  obtain ⟨hwithin, hexact⟩ := h.exact hpayable haccepted hfew
  have hpaid := paidAmount_after haccepted h.nonneg hexact
  have hstored := (toNumeric_eq_ok.mp haccepted.stored_eq).1
  have hpositive : 0 ≤ amount * 100 := by
    have := haccepted.positive
    linarith
  have hbalance : l.store.balance invoiceId invoice = ((cents - invoice.paidAmount : Int) : Rat) / 100 := by
    rw [InvoiceStore.balance, htotal]
    push_cast
    ring
  -- in cents, the amount is at most what is left, a whole number
  have hle : amount * 100 ≤ ((cents - invoice.paidAmount : Int) : Rat) := by
    rw [hbalance] at hwithin
    linarith
  have hround := roundHalfAway_le hpositive hle
  have hequal := roundHalfAway_eq_iff hpositive hle
  refine ⟨by omega, ?_⟩
  have hstoredTotal : paidAmount * 100 = l.store.totalOf invoiceId ↔
      roundHalfAway (amount * 100) = cents - invoice.paidAmount := by
    constructor <;> intro heq <;> omega
  rw [hexact, hstoredTotal, hequal, htotal]
  have hjust := hnot rfl invoice h.found
  rw [hbalance] at hjust
  push_cast at hjust hle ⊢
  constructor
  · intro hcomplete
    linarith
  · intro hhalf
    by_contra hne
    apply hjust
    constructor
    · refine lt_of_le_of_ne (by linarith) fun heq => hne ?_
      linarith
    · linarith

/-- **One call** keeps the invariant. -/
theorem LedgerInvariant.step (h : LedgerInvariant l invoiceId invoice) (hpayable : l.store.Payable invoiceId)
    {call : Nat × Rat} (hnot : l.NotJustShort invoiceId call) (hfew : call.1 = invoiceId → FewDecimals call.2) :
    (∃ invoice', LedgerInvariant (l.step call) invoiceId invoice') ∧
      (l.step call).store.totalOf invoiceId = l.store.totalOf invoiceId := by
  rcases l.step_cases call with hsame | hok
  · rw [hsame]
    exact ⟨⟨invoice, h⟩, rfl⟩
  · obtain ⟨paying, stored, paidAmount, haccepted, hafter⟩ := recordPayment_eq_ok.mp hok
    obtain ⟨id, amount⟩ := call
    rw [hafter]
    refine ⟨?_, rfl⟩
    by_cases hid : id = invoiceId
    · subst hid
      obtain rfl : paying = invoice := Option.some.inj (haccepted.found.symm.trans h.found)
      obtain ⟨hwithin, hcomplete⟩ := h.pay hpayable haccepted (hfew rfl) hnot
      have hpaid := paidAmount_after haccepted h.nonneg (h.exact hpayable haccepted (hfew rfl)).2
      refine ⟨paying.afterPayment paidAmount
        (decimal28 ((paying.paidAmount : Rat) / 100 + amount) = (l.store.totalOf id : Rat) / 10000),
        ⟨?_, ?_, ?_, hwithin, ?_⟩⟩
      · rw [getInvoice_after, h.found, Option.map_some, if_pos (by simp [id_of_getInvoice h.found])]
      · show 0 ≤ paidAmount
        have hcheck := haccepted.check
        have hnonneg := h.nonneg
        omega
      · show paidAmount = _
        rw [paidOf_append, if_pos rfl, hpaid, h.sum]
        rfl
      · refine Iff.trans ?_ hcomplete
        show (if _ then InvoiceStatus.paid else .partiallyPaid) = .paid ↔ _
        split <;> simp_all
    · refine ⟨invoice, ⟨?_, h.nonneg, ?_, h.within, h.paid⟩⟩
      · rw [getInvoice_after, h.found, Option.map_some, if_neg]
        rw [id_of_getInvoice h.found, beq_iff_eq]
        exact fun heq => hid heq.symm
      · rw [paidOf_append, if_neg hid, Int.add_zero]
        exact h.sum

/-- The rest can be paid at once. -/
theorem LedgerInvariant.reaches (h : LedgerInvariant l invoiceId invoice) (hpayable : l.store.Payable invoiceId)
    (hopen : invoice.isPayable) (hbalance : 0 < l.store.balance invoiceId invoice) :
    ∃ cents : List Int, (∀ c ∈ cents, 0 < c) ∧
      ((run Ledger.step l (cents.map (payCents invoiceId))).store.getInvoice invoiceId).map
        (·.status) = some .paid := by
  obtain ⟨cents, htotal, _, hsmall⟩ := hpayable.total
  have hrest : l.store.balance invoiceId invoice = ((cents - invoice.paidAmount : Int) : Rat) / 100 := by
    rw [InvoiceStore.balance, htotal]
    push_cast
    ring
  have hpositive : 0 < cents - invoice.paidAmount := by
    rw [hrest] at hbalance
    have : (0 : Rat) < ((cents - invoice.paidAmount : Int) : Rat) := by linarith
    exact_mod_cast this
  have hnonneg := h.nonneg
  refine ⟨[cents - invoice.paidAmount], by simpa using hpositive, ?_⟩
  have hstored : toNumeric 14 (((cents - invoice.paidAmount : Int) : Rat) / 100) =
      .ok (cents - invoice.paidAmount) := by
    refine toNumeric_eq_ok.mpr ⟨?_, by omega⟩
    rw [div_mul_cancel₀ _ (by norm_num), roundHalfAway_intCast]
  have hsum : decimal28 ((invoice.paidAmount : Rat) / 100 + ((cents - invoice.paidAmount : Int) : Rat) / 100) =
      (cents : Rat) / 100 := by
    rw [show (invoice.paidAmount : Rat) / 100 + ((cents - invoice.paidAmount : Int) : Rat) / 100 = cents / 100 by
      push_cast
      ring]
    exact decimal28_eq (n := cents) (k := 2) (by ring) (abs_lt.mpr (by omega))
  have hpaid : toNumeric 14 (decimal28 ((invoice.paidAmount : Rat) / 100 +
      ((cents - invoice.paidAmount : Int) : Rat) / 100)) = .ok cents := by
    refine toNumeric_eq_ok.mpr ⟨?_, by omega⟩
    rw [hsum, div_mul_cancel₀ _ (by norm_num), roundHalfAway_intCast]
  have hwithin : ((cents - invoice.paidAmount : Int) : Rat) / 100 ≤ decimal28 (l.store.balance invoiceId invoice) := by
    rw [decimal28_balance (abs_lt.mpr (by omega)), hrest]
  have hok := recordPayment_eq_ok.mpr ⟨invoice, cents - invoice.paidAmount, cents,
    ⟨by rw [← hrest]; exact hbalance, h.found, hopen, hwithin, hstored, hpaid, hpositive⟩, rfl⟩
  rw [List.map_cons, List.map_nil, Library.run_cons, Library.run_nil, step_of_ok hok]
  rw [getInvoice_after, h.found, Option.map_some, Option.map_some, if_pos (by simp [id_of_getInvoice h.found])]
  show some (if _ then InvoiceStatus.paid else .partiallyPaid) = some .paid
  rw [if_pos]
  rw [hsum, htotal]
  push_cast
  ring

end

/-! ## Every sequence of payments -/

/-- An invoice that was submitted and of which nothing is paid. -/
structure Ledger.Submitted (l : Ledger) (invoiceId : Nat) (invoice : TeamInvoice) : Prop where
  found : l.store.getInvoice invoiceId = some invoice
  status : invoice.status = .submitted
  unpaid : invoice.paidAmount = 0
  payments : ∀ payment ∈ l.payments, payment.invoiceId ≠ invoiceId

section

variable {l : Ledger} {invoiceId : Nat} {invoice : TeamInvoice}

theorem Ledger.Submitted.invariant (h : l.Submitted invoiceId invoice) (hpayable : l.store.Payable invoiceId) :
    LedgerInvariant l invoiceId invoice where
  found := h.found
  nonneg := h.unpaid.ge
  sum := by
    have hnone : l.payments.filter (·.invoiceId == invoiceId) = [] :=
      List.filter_eq_nil_iff.mpr fun payment hmem => by simpa using h.payments payment hmem
    rw [Ledger.paidOf, hnone, h.unpaid]
    rfl
  within := by
    have hpositive := hpayable.positive
    rw [h.unpaid]
    omega
  paid := by
    have hpositive := hpayable.positive
    rw [h.status, h.unpaid]
    constructor
    · exact nofun
    · omega

/-- **The ledger of an invoice is exact** after every sequence of payments, of this invoice and of others,
that meets the condition. -/
theorem ledger_run (h : l.Submitted invoiceId invoice) (hpayable : l.store.Payable invoiceId)
    {calls : List (Nat × Rat)}
    (hguarded : Guarded Ledger.step
      (fun l call => l.NotJustShort invoiceId call ∧ (call.1 = invoiceId → FewDecimals call.2)) l calls) :
    ∃ invoice', (run Ledger.step l calls).store.getInvoice invoiceId = some invoice' ∧
      (run Ledger.step l calls).Exact invoiceId invoice' := by
  have hinvariant := Library.guarded_invariant
    (fun l : Ledger => l.store.Payable invoiceId ∧ ∃ invoice, LedgerInvariant l invoiceId invoice)
    (fun l call ⟨hpayable, invoice, hsound⟩ ⟨hnot, hfew⟩ => by
      obtain ⟨hkept, htotal⟩ := hsound.step hpayable hnot hfew
      refine ⟨⟨?_, ?_, ?_⟩, hkept⟩
      · rw [htotal]
        exact hpayable.positive
      · rw [htotal]
        exact hpayable.cents
      · rw [htotal]
        exact hpayable.small)
    ⟨hpayable, invoice, h.invariant hpayable⟩ hguarded
  obtain ⟨hpayable, invoice', hsound⟩ := hinvariant
  exact ⟨invoice', hsound.found, hsound.sum, hsound.within, hsound.paid, hsound.reaches hpayable⟩

end

/-! ## An invoice of one line -/

/-- A submitted invoice of one line. -/
def oneLine (quantity unitPrice : Int) : Ledger where
  store :=
    { invoices := [{ id := 1, number := "AH-2024-6F1C2A-0001", userId := 1, issuedOn := 0, dueOn := 14,
                     status := .submitted, currency := "USD", purchaseOrder := "", notes := "", paidAmount := 0 }]
      lines := [{ id := 2, invoiceId := 1, projectId := none, description := "Fence", quantity, unitPrice,
                  tracked := false, period := none }]
      nextId := 3 }

theorem submitted_oneLine (quantity unitPrice : Int) :
    ∃ invoice, (oneLine quantity unitPrice).Submitted 1 invoice :=
  ⟨_, rfl, rfl, rfl, nofun⟩

/-- Ten pieces at 2.50 are paid in two parts. -/
theorem ledger_run_twoParts :
    ∃ invoice', (run Ledger.step (oneLine 1000 250) [(1, 9.99), (1, 15.01)]).store.getInvoice 1 = some invoice' ∧
      (run Ledger.step (oneLine 1000 250) [(1, 9.99), (1, 15.01)]).Exact 1 invoice' := by
  obtain ⟨invoice, hsubmitted⟩ := submitted_oneLine 1000 250
  have hpayable : (oneLine 1000 250).store.Payable 1 := ⟨by decide, by decide, by decide⟩
  have hfirst : ∀ invoice ∈ (oneLine 1000 250).store.getInvoice 1,
      ¬ (0 < (oneLine 1000 250).store.balance 1 invoice - 9.99 ∧
        (oneLine 1000 250).store.balance 1 invoice - 9.99 ≤ 1 / 200) := by decide +kernel
  have hsecond : ∀ invoice ∈ ((oneLine 1000 250).step (1, 9.99)).store.getInvoice 1,
      ¬ (0 < ((oneLine 1000 250).step (1, 9.99)).store.balance 1 invoice - 15.01 ∧
        ((oneLine 1000 250).step (1, 9.99)).store.balance 1 invoice - 15.01 ≤ 1 / 200) := by decide +kernel
  exact ledger_run hsubmitted hpayable
    ⟨⟨fun _ => hfirst, fun _ => ⟨9990000000000000, by norm_num⟩⟩,
      ⟨fun _ => hsecond, fun _ => ⟨15010000000000000, by norm_num⟩⟩, trivial⟩

/-- **More is paid than the total**: half a piece at 0.03 comes to 0.0150, and a payment of as much is stored
as 0.02. -/
theorem ledger_overpaid :
    ¬ ∀ (l : Ledger) (invoiceId : Nat) (invoice : TeamInvoice), l.Submitted invoiceId invoice →
      ∀ calls : List (Nat × Rat), ∃ invoice',
        (run Ledger.step l calls).store.getInvoice invoiceId = some invoice' ∧
          (run Ledger.step l calls).Exact invoiceId invoice' := by
  intro h
  obtain ⟨invoice, hsubmitted⟩ := submitted_oneLine 50 3
  obtain ⟨invoice', hfound, hexact⟩ := h _ 1 invoice hsubmitted [(1, 0.015)]
  have hover : ((run Ledger.step (oneLine 50 3) [(1, 0.015)]).store.getInvoice 1).map (·.paidAmount) = some 2 ∧
      (run Ledger.step (oneLine 50 3) [(1, 0.015)]).store.totalOf 1 = 150 := by decide +kernel
  rw [hfound] at hover
  have hpaid : invoice'.paidAmount = 2 := Option.some.inj hover.1
  have hwithin := hexact.within
  rw [hpaid, hover.2] at hwithin
  exact absurd hwithin (by decide)

end Dayfinch
