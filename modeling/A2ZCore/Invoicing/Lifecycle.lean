import A2ZCore.Invoicing.Invariants

/-!
# How far the lifecycle runs backwards

The status of an invoice is meant to move one way. It does under five of the six operations. The
sixth, `update_invoice`, recomputes the status from the new total, and a paid invoice whose new
total exceeds what has been paid is partially paid again. That is the only way back:
`forward_runAll` says that a sequence of requests moves every invoice forward exactly when none
of them reopens a paid invoice.

## Main definitions

* `InvoiceStatus.rank`, `Forward` — the order of the lifecycle
* `Reopens` — an update that raises a paid invoice's total above the amount paid

## Main results

* `Transition.forward_iff` — one operation
* `forward_runAll` — sequences of requests
* `not_forward_of_update` — a run that goes back
-/

namespace A2ZCore.Invoicing

open Interaction Relational

/-- The position of a status in the lifecycle. -/
def InvoiceStatus.rank : InvoiceStatus → ℕ
  | draft => 0
  | sent => 1
  | partiallyPaid => 2
  | paid => 3
  | void => 4

theorem rank_le_void (s : InvoiceStatus) : s.rank ≤ InvoiceStatus.void.rank := by
  cases s <;> decide

/-- Every invoice is still there, and its status is no lower. -/
def Forward (db db' : Db) : Prop :=
  ∀ i ∈ db.invoices.rows, ∃ j ∈ db'.invoices.rows, j.id = i.id ∧ i.status.rank ≤ j.status.rank

theorem Forward.refl (db : Db) : Forward db db := fun i hi => ⟨i, hi, rfl, le_rfl⟩

theorem Forward.trans {db₁ db₂ db₃ : Db} (h : Forward db₁ db₂) (h' : Forward db₂ db₃) :
    Forward db₁ db₃ := by
  intro i hi
  obtain ⟨j, hj, hji, hij⟩ := h i hi
  obtain ⟨k, hk, hkj, hjk⟩ := h' j hj
  exact ⟨k, hk, hkj.trans hji, hij.trans hjk⟩

/-- The total an update computes, from the body and the stored row. -/
def totalAfter (db : Db) (loaded : Invoice) (body : InvoiceUpdateRequest) : Except PyErr ℤ :=
  let amounts : Except PyErr (List ℤ) := match body.lineItems with
    | none => .ok ((db.selectItems loaded.orgId loaded.id).map (·.amountCents))
    | some new => (buildLineItems loaded.orgId new).map fun built => built.map (·.amountCents)
  amounts.bind fun amounts =>
    (computeTotals amounts (withFields body loaded).taxCents
      (withFields body loaded).discountCents).map Prod.snd

/-- The operation updates the total of a paid invoice to more than has been paid. -/
def Reopens (db : Db) : Op → Prop
  | .update orgId invoiceId _ body => ∃ loaded total, Loaded db orgId invoiceId loaded ∧
      loaded.status = .paid ∧ recomputes body = true ∧ totalAfter db loaded body = .ok total ∧
      loaded.amountPaidCents < total
  | _ => False

/-! ### Ranks of derived statuses -/

theorem rank_nextPaymentStatus_mono {paid paid' : ℤ} (h : paid ≤ paid') (total : ℤ) :
    (nextInvoiceStatus .sent (nextPaymentStatus paid total)).rank ≤
      (nextInvoiceStatus .sent (nextPaymentStatus paid' total)).rank := by
  unfold nextPaymentStatus
  split_ifs <;> first | omega | decide

/-- A new total sets the status back exactly when it was paid and no longer is. -/
theorem rank_nextPaymentStatus_iff (paid total total' : ℤ) :
    (nextInvoiceStatus .sent (nextPaymentStatus paid total)).rank ≤
        (nextInvoiceStatus .sent (nextPaymentStatus paid total')).rank ↔
      ¬(nextInvoiceStatus .sent (nextPaymentStatus paid total) = .paid ∧ paid < total') := by
  unfold nextPaymentStatus
  split_ifs <;> simp [nextInvoiceStatus, InvoiceStatus.isPayable, InvoiceStatus.rank] <;> omega

/-! ### One operation -/

section Operations

variable {db db' : Db} {loaded current : Invoice}

/-- An update of one row moves forward when that row does. -/
theorem forward_update_iff (hloaded : loaded ∈ db.invoices.rows)
    (hrows : db'.invoices.rows = db.invoices.rows.map fun row =>
      if row.id = current.id then patch loaded current row else row)
    (hsame : SameInvoice current loaded) :
    Forward db db' ↔ loaded.status.rank ≤ current.status.rank := by
  rw [rows_update_loaded hloaded hsame] at hrows
  constructor
  · intro h
    obtain ⟨j, hj, hjid, hrank⟩ := h loaded hloaded
    rw [hrows] at hj
    obtain ⟨row, _, rfl⟩ := List.mem_map.mp hj
    by_cases hid : row.id = current.id
    · rwa [if_pos hid] at hrank
    · rw [if_neg hid] at hjid
      exact absurd (hjid.trans hsame.id.symm) hid
  · intro hrank i hi
    refine ⟨if i.id = current.id then current else i, ?_, ?_⟩
    · rw [hrows]
      exact List.mem_map_of_mem hi
    · by_cases hid : i.id = current.id
      · rw [if_pos hid, invoice_eq_of_id db hi hloaded (hid.trans hsame.id)]
        exact ⟨hsame.id, hrank⟩
      · rw [if_neg hid]
        exact ⟨rfl, le_rfl⟩

theorem Balanced.status_eq {i : Invoice} (hb : Balanced db i) (h : i.status.isPayable) :
    i.status = nextInvoiceStatus .sent (nextPaymentStatus i.amountPaidCents i.totalCents) := by
  rw [hb.status h, hb.paymentStatus]

/-- An operation that only writes columns of one invoice. -/
theorem forward_updateOnly {now : DateTime} (hloaded : loaded ∈ db.invoices.rows)
    (happly : db.apply now [.updateInvoice loaded current] = .ok db')
    (hsame : SameInvoice current loaded) (hrank : loaded.status.rank ≤ current.status.rank) :
    Forward db db' := by
  obtain ⟨db₁, h₁, h₂⟩ := Db.apply_cons.mp happly
  cases h₂
  exact (forward_update_iff hloaded (Write.apply_updateInvoice h₁).1 hsame).mpr hrank

/-- The amounts an update computes its total from are the ones `totalAfter` names. -/
theorem totalAfter_eq {body : InvoiceUpdateRequest} {items : List InvoiceLineItem}
    {writes : List Write} (hitems : EditsItems db loaded.orgId loaded.id body items writes)
    {subtotal total : ℤ}
    (htotals : computeTotals (items.map (·.amountCents)) (withFields body loaded).taxCents
      (withFields body loaded).discountCents = .ok (subtotal, total)) :
    totalAfter db loaded body = .ok total := by
  unfold EditsItems at hitems
  unfold totalAfter
  cases hbody : body.lineItems with
  | none =>
    rw [hbody] at hitems
    have hsum := (hitems.1.map (·.amountCents)).sum_eq
    simp only [computeTotals, hsum] at htotals
    simp only [Except.bind, computeTotals, htotals]
    rfl
  | some new =>
    rw [hbody] at hitems
    obtain ⟨_, _, ⟨⟨built, hbuilt, hamounts⟩, _, _⟩, _⟩ := hitems
    rw [hamounts] at htotals
    simp only [hbuilt, Except.map, Except.bind, htotals]

/-- The update of one invoice moves forward unless it reopens it. -/
theorem rank_recompute_iff (hb : Balanced db loaded)
    {body : InvoiceUpdateRequest} {items : List InvoiceLineItem} {writes : List Write}
    (hitems : EditsItems db loaded.orgId loaded.id body items writes)
    (hcurrent : recompute body (withFields body loaded) items = .ok current) :
    loaded.status.rank ≤ current.status.rank ↔
      ¬(loaded.status = .paid ∧ recomputes body = true ∧
        ∃ total, totalAfter db loaded body = .ok total ∧ loaded.amountPaidCents < total) := by
  unfold recompute at hcurrent
  split at hcurrent
  · next hre =>
    obtain ⟨subtotal, total, htotals, rfl⟩ := withTotals_eq_ok hcurrent
    have hafter := totalAfter_eq hitems htotals
    have hex : (∃ t, totalAfter db loaded body = .ok t ∧ loaded.amountPaidCents < t) ↔
        loaded.amountPaidCents < total := by
      rw [hafter]
      exact ⟨fun ⟨t, ht, hlt⟩ => by cases ht; exact hlt, fun h => ⟨total, rfl, h⟩⟩
    rw [hex]
    change loaded.status.rank ≤
      (nextInvoiceStatus loaded.status (nextPaymentStatus loaded.amountPaidCents total)).rank ↔ _
    by_cases hpay : loaded.status.isPayable
    · rw [nextInvoiceStatus_of_isPayable hpay, hb.status_eq hpay, rank_nextPaymentStatus_iff]
      simp [hre]
    · have hne : loaded.status ≠ .paid := fun hs => hpay (by rw [hs]; rfl)
      rw [nextInvoiceStatus_of_not_isPayable hpay]
      simp [hne]
  · next hno =>
    cases hcurrent
    simp [hno, withFields]

end Operations

/-- **One operation.** In a sound state an operation that takes effect moves every invoice forward
exactly when it does not reopen a paid one. -/
theorem Transition.forward_iff {db db' : Db} {op : Op} (h : Transition db op db')
    (hsound : Sound db) : Forward db db' ↔ ¬Reopens db op := by
  cases h with
  | create _ _ _ _ _ _ _ _ _ happly =>
    obtain ⟨db₁, h₁, h₂⟩ := Db.apply_cons.mp happly
    obtain ⟨hrows, _⟩ := Write.apply_insertInvoice h₁
    obtain ⟨_, hinvoices, _⟩ := apply_insertLineItems h₂
    refine iff_of_true (fun i hi => ⟨i, ?_, rfl, le_rfl⟩) id
    rw [hinvoices, hrows]
    exact List.mem_append_left _ hi
  | update hloaded _ hitems hcurrent happly =>
    obtain ⟨hmem, rfl, rfl, hdeleted⟩ := hloaded
    obtain ⟨db₁, h₁, h₂⟩ := Db.apply_cons.mp happly
    obtain ⟨hrows, hlineItems, _⟩ := Write.apply_updateInvoice h₁
    obtain ⟨_, hinvoices, _⟩ := hsound.itemsEdited hmem hitems hlineItems h₂
    rw [← hinvoices] at hrows
    rw [forward_update_iff hmem hrows (sameInvoice_recompute hcurrent),
      rank_recompute_iff (hsound.balanced _ hmem) hitems hcurrent]
    refine not_congr ⟨?_, ?_⟩
    · rintro ⟨hpaid, hre, total, htotal, hlt⟩
      exact ⟨_, total, ⟨hmem, rfl, rfl, hdeleted⟩, hpaid, hre, htotal, hlt⟩
    · rintro ⟨loaded', total, hloaded', hpaid, hre, htotal, hlt⟩
      cases invoice_eq_of_id db hloaded'.mem hmem hloaded'.id
      exact ⟨hpaid, hre, total, htotal, hlt⟩
  | softDelete hloaded happly =>
    exact iff_of_true (forward_updateOnly hloaded.mem happly ⟨rfl, rfl, rfl, rfl, rfl, rfl⟩ le_rfl) id
  | send hloaded hstatus happly =>
    refine iff_of_true (forward_updateOnly hloaded.mem happly ⟨rfl, rfl, rfl, rfl, rfl, rfl⟩ ?_) id
    rw [hstatus]
    exact Nat.zero_le 1
  | @pay _ _ _ _ body loaded _ _ hloaded hstatus happly =>
    refine iff_of_true ?_ id
    obtain ⟨db₁, h₁, h₂⟩ := Db.apply_cons.mp happly
    obtain ⟨db₂, h₂, h₃⟩ := Db.apply_cons.mp h₂
    cases h₃
    obtain ⟨hrows, _⟩ := Write.apply_updateInvoice h₁
    obtain ⟨_, hinvoices, _⟩ := Write.apply_insertPayment h₂
    rw [← hinvoices] at hrows
    refine (forward_update_iff hloaded.mem hrows ⟨rfl, rfl, rfl, rfl, rfl, rfl⟩).mpr ?_
    change loaded.status.rank ≤ (nextInvoiceStatus loaded.status
      (nextPaymentStatus (loaded.amountPaidCents + body.amountCents) loaded.totalCents)).rank
    rw [nextInvoiceStatus_of_isPayable hstatus,
      (hsound.balanced _ hloaded.mem).status_eq hstatus]
    refine rank_nextPaymentStatus_mono ?_ _
    have hpos := body.amountCents_pos
    omega
  | void hloaded _ happly =>
    refine iff_of_true (forward_updateOnly hloaded.mem happly ⟨rfl, rfl, rfl, rfl, rfl, rfl⟩ ?_) id
    exact rank_le_void _

/-! ### Sequences of requests -/

/-- The database after the first `n` requests. -/
def after (rs : List Request) (n : ℕ) : Db := runAll Db.empty (rs.take n)

theorem reachable_after (rs : List Request) (n : ℕ) : Reachable (after rs n) := ⟨rs.take n, rfl⟩

theorem after_succ {rs : List Request} {n : ℕ} {r : Request} (h : rs[n]? = some r) :
    after rs (n + 1) = r.apply (after rs n) := by
  rw [after, after, List.take_add_one, h, runAll, List.foldl_append]
  rfl

theorem after_of_length_le {rs : List Request} {n : ℕ} (h : rs[n]? = none) :
    after rs (n + 1) = after rs n := by
  rw [after, after, List.take_add_one, h]
  simp

/-- One request, which may also fail without effect. -/
theorem forward_apply_iff {db : Db} (h : Sound db) (r : Request) :
    Forward db (r.apply db) ↔ ¬(Reopens db r.op ∧ r.apply db ≠ db) := by
  rcases exec_op r.op r.oracle ⟨r.core, db⟩ with hsame | htransition
  · have hsame : r.apply db = db := hsame
    rw [hsame]
    simp [Forward.refl]
  · have htransition : Transition db r.op (r.apply db) := htransition
    rw [htransition.forward_iff h]
    refine not_congr ⟨fun hre => ⟨hre, fun hsame => ?_⟩, fun hre => hre.1⟩
    have hforward : Forward db (r.apply db) := by rw [hsame]; exact Forward.refl db
    exact (htransition.forward_iff h).mp hforward hre

/-- A run none of whose requests reopens an invoice moves every invoice forward. -/
theorem forward_after {rs : List Request}
    (h : ∀ n r, rs[n]? = some r → ¬Reopens (after rs n) r.op) {n m : ℕ} (hnm : n ≤ m) :
    Forward (after rs n) (after rs m) := by
  induction m, hnm using Nat.le_induction with
  | base => exact Forward.refl _
  | succ m _ ih =>
    refine ih.trans ?_
    cases hr : rs[m]? with
    | none => rw [after_of_length_le hr]; exact Forward.refl _
    | some r =>
      rw [after_succ hr, forward_apply_iff (sound_of_reachable (reachable_after rs m))]
      exact fun hre => h m r hr hre.1

/-- **The lifecycle moves forward exactly while no paid invoice is reopened.** A run without such a
request moves forward between any two of its states. A request that is one moves an invoice back,
unless it fails and changes nothing. -/
theorem forward_runAll (rs : List Request) :
    ((∀ n r, rs[n]? = some r → ¬Reopens (after rs n) r.op) →
        ∀ n m, n ≤ m → Forward (after rs n) (after rs m)) ∧
      ∀ n r, rs[n]? = some r → Reopens (after rs n) r.op →
        after rs (n + 1) = after rs n ∨ ¬Forward (after rs n) (after rs (n + 1)) := by
  refine ⟨fun h n m => forward_after h, fun n r hr hre => ?_⟩
  rw [after_succ hr, forward_apply_iff (sound_of_reachable (reachable_after rs n))]
  by_cases hsame : r.apply (after rs n) = after rs n
  · exact .inl hsame
  · exact .inr fun h => h ⟨hre, hsame⟩

/-- An update that adds ten cents of tax. -/
def tenCentsTax : InvoiceUpdateRequest where
  customerEmail := none
  customerName := none
  customerCompany := none
  invoiceDate := none
  dueDate := none
  paymentTerms := none
  lineItems := none
  taxCents := some 10
  discountCents := none
  notes := none

/-- The invoice after the payment in full, and after ten cents of tax on top of it. -/
theorem reopened_statuses :
    (after createSendPay 3).invoices.rows.map (·.status) = [.paid] ∧
      ((Request.calm (.update "org" "c4" "ada" tenCentsTax) "u").apply
        (after createSendPay 3)).invoices.rows.map (·.status) = [.partiallyPaid] := by
  set_option maxRecDepth 10000 in decide

/-- A paid invoice does go back. -/
theorem not_forward_of_update :
    ¬∀ db, Reachable db → ∀ r : Request, Forward db (r.apply db) := by
  intro h
  obtain ⟨hbefore, hafter⟩ := reopened_statuses
  have hforward := h (after createSendPay 3) (reachable_after _ 3)
    (.calm (.update "org" "c4" "ada" tenCentsTax) "u")
  obtain ⟨i, hi, hstatus⟩ : ∃ i ∈ (after createSendPay 3).invoices.rows, i.status = .paid := by
    exact List.mem_map.mp (by rw [hbefore]; exact List.mem_singleton.mpr rfl)
  obtain ⟨j, hj, _, hrank⟩ := hforward i hi
  have hj' : j.status ∈ [InvoiceStatus.partiallyPaid] := by
    rw [← hafter]
    exact List.mem_map_of_mem hj
  rw [List.mem_singleton.mp hj', hstatus] at hrank
  exact absurd hrank (by decide)

end A2ZCore.Invoicing
