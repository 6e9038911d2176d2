import A2ZCore.Invoicing.Transitions

/-!
# What every reachable invoicing state satisfies

The amounts of an invoice are denormalised: the subtotal repeats its line items, the amount paid
repeats its payments, the payment status repeats the two, and the status repeats the payment status
once the invoice has been sent. `Balanced db i` says that all of these agree. No operation changes
all of them, so the invariant is about the whole row and its two tables, and it needs `Sound`, which
adds that line items and payments hang on an existing invoice of their own org.

## Main definitions

* `Balanced` — an invoice agrees with its line items and payments
* `Sound` — every invoice does, and nothing is orphaned

## Main results

* `Sound.transition` — every operation keeps it
* `balanced_of_reachable` — every invoice of every reachable state is balanced
-/

namespace A2ZCore.Invoicing

open Interaction Relational

/-- The denormalised columns of an invoice agree with its line items and payments, and its statuses
with each other. -/
structure Balanced (db : Db) (i : Invoice) : Prop where
  subtotal : i.subtotalCents = ((db.itemsOf i.id).map (·.amountCents)).sum
  total : i.totalCents = i.subtotalCents + i.taxCents - i.discountCents
  total_nonneg : 0 ≤ i.totalCents
  amountPaid : i.amountPaidCents = db.paidCents i.id
  paymentStatus : i.paymentStatus = nextPaymentStatus i.amountPaidCents i.totalCents
  draft : i.status = .draft → db.paymentsOf i.id = []
  status : i.status.isPayable → i.status = nextInvoiceStatus .sent i.paymentStatus

/-- Every invoice is balanced, and every line item and payment belongs to an invoice of its org. -/
structure Sound (db : Db) : Prop where
  balanced : ∀ i ∈ db.invoices.rows, Balanced db i
  itemOwner : ∀ t ∈ db.lineItems.rows, ∃ i ∈ db.invoices.rows, i.id = t.invoiceId ∧ i.orgId = t.orgId
  paymentOwner : ∀ p ∈ db.payments.rows,
    ∃ i ∈ db.invoices.rows, i.id = p.invoiceId ∧ i.orgId = p.orgId

/-! ### The state machine -/

theorem computeTotals_eq_ok {amounts : List ℤ} {tax discount : ℤ} {r : ℤ × ℤ}
    (h : computeTotals amounts tax discount = .ok r) :
    r.1 = amounts.sum ∧ r.2 = r.1 + tax - discount ∧ 0 ≤ r.2 := by
  unfold computeTotals at h
  dsimp only at h
  split at h
  · cases h
  · cases h
    exact ⟨rfl, rfl, by omega⟩

/-- On the paid track the current status does not matter. -/
theorem nextInvoiceStatus_of_isPayable {s : InvoiceStatus} (h : s.isPayable) (p : PaymentStatus) :
    nextInvoiceStatus s p = nextInvoiceStatus .sent p := by
  cases s <;> first | rfl | exact absurd h Bool.false_ne_true

theorem nextInvoiceStatus_of_not_isPayable {s : InvoiceStatus} (h : ¬s.isPayable)
    (p : PaymentStatus) : nextInvoiceStatus s p = s := by
  simp [nextInvoiceStatus, h]

theorem isPayable_nextInvoiceStatus {s : InvoiceStatus} {p : PaymentStatus} :
    (nextInvoiceStatus s p).isPayable = s.isPayable := by
  cases s <;> cases p <;> rfl

/-! ### Tables -/

theorem itemsOf_append {db : Db} {db' : Db} {new : List InvoiceLineItem}
    (h : db'.lineItems.rows = db.lineItems.rows ++ new) (id : String) :
    db'.itemsOf id = db.itemsOf id ++ new.filter fun i => i.invoiceId == id := by
  rw [Db.itemsOf, h, List.filter_append]
  rfl

theorem paymentsOf_append {db : Db} {db' : Db} {new : List InvoicePayment}
    (h : db'.payments.rows = db.payments.rows ++ new) (id : String) :
    db'.paymentsOf id = db.paymentsOf id ++ new.filter fun p => p.invoiceId == id := by
  rw [Db.paymentsOf, h, List.filter_append]
  rfl

/-- In a sound state an invoice's line items are the ones its org selects. -/
theorem Sound.selectItems_eq {db : Db} (h : Sound db) {i : Invoice} (hi : i ∈ db.invoices.rows) :
    db.selectItems i.orgId i.id = db.itemsOf i.id := by
  refine List.filter_congr fun t ht => ?_
  by_cases hid : t.invoiceId = i.id
  · obtain ⟨j, hj, hjid, hjorg⟩ := h.itemOwner t ht
    have hij : j = i := invoice_eq_of_id db hj hi (hjid.trans hid)
    simp [hid, ← hjorg, hij]
  · simp [hid]

/-- Balance depends on these columns and on the invoice's own rows. -/
theorem Balanced.congr {db db' : Db} {i j : Invoice} (h : Balanced db i) (hid : j.id = i.id)
    (hitems : db'.itemsOf i.id = db.itemsOf i.id)
    (hpayments : db'.paymentsOf i.id = db.paymentsOf i.id)
    (hsub : j.subtotalCents = i.subtotalCents) (htax : j.taxCents = i.taxCents)
    (hdiscount : j.discountCents = i.discountCents) (htotal : j.totalCents = i.totalCents)
    (hpaid : j.amountPaidCents = i.amountPaidCents) (hps : j.paymentStatus = i.paymentStatus)
    (hdraft : j.status = .draft → i.status = .draft)
    (hstatus : j.status.isPayable → j.status = nextInvoiceStatus .sent j.paymentStatus) :
    Balanced db' j where
  subtotal := by rw [hid, hitems, hsub, h.subtotal]
  total := by rw [htotal, hsub, htax, hdiscount, h.total]
  total_nonneg := by rw [htotal]; exact h.total_nonneg
  amountPaid := by rw [hpaid, h.amountPaid, Db.paidCents, Db.paidCents, hid, hpayments]
  paymentStatus := by rw [hps, hpaid, htotal, h.paymentStatus]
  draft hj := by rw [hid, hpayments]; exact h.draft (hdraft hj)
  status := hstatus

/-- An operation on one invoice: the others keep their rows, and it is balanced again. -/
theorem Sound.update {db db' : Db} (h : Sound db) {loaded current : Invoice}
    (hloaded : loaded ∈ db.invoices.rows)
    (hrows : db'.invoices.rows = db.invoices.rows.map fun row =>
      if row.id = current.id then patch loaded current row else row)
    (hsame : SameInvoice current loaded)
    (hitems : ∀ id ≠ current.id, db'.itemsOf id = db.itemsOf id)
    (hpayments : ∀ id ≠ current.id, db'.paymentsOf id = db.paymentsOf id)
    (hitemOwner : ∀ t ∈ db'.lineItems.rows, t ∈ db.lineItems.rows ∨
      current.id = t.invoiceId ∧ current.orgId = t.orgId)
    (hpaymentOwner : ∀ p ∈ db'.payments.rows, p ∈ db.payments.rows ∨
      current.id = p.invoiceId ∧ current.orgId = p.orgId)
    (hbalanced : Balanced db' current) : Sound db' := by
  rw [rows_update_loaded hloaded hsame] at hrows
  have hcurrent : current ∈ db'.invoices.rows := by
    rw [hrows]
    exact List.mem_map.mpr ⟨loaded, hloaded, if_pos hsame.id.symm⟩
  have howner : ∀ i ∈ db.invoices.rows, ∃ j ∈ db'.invoices.rows, j.id = i.id ∧ j.orgId = i.orgId := by
    intro i hi
    by_cases hid : i.id = current.id
    · have hil : i = loaded := invoice_eq_of_id db hi hloaded (hid.trans hsame.id)
      exact ⟨current, hcurrent, hid.symm, hil ▸ hsame.orgId⟩
    · exact ⟨i, by rw [hrows]; exact List.mem_map.mpr ⟨i, hi, if_neg hid⟩, rfl, rfl⟩
  refine ⟨fun j hj => ?_, fun t ht => ?_, fun p hp => ?_⟩
  · rw [hrows] at hj
    obtain ⟨i, hi, rfl⟩ := List.mem_map.mp hj
    by_cases hid : i.id = current.id
    · rw [if_pos hid]
      exact hbalanced
    · rw [if_neg hid]
      have hi' := h.balanced i hi
      exact hi'.congr rfl (hitems _ hid) (hpayments _ hid) rfl rfl rfl rfl rfl rfl id hi'.status
  · rcases hitemOwner t ht with hold | hnew
    · obtain ⟨i, hi, hid, horg⟩ := h.itemOwner t hold
      obtain ⟨j, hj, hjid, hjorg⟩ := howner i hi
      exact ⟨j, hj, hjid.trans hid, hjorg.trans horg⟩
    · exact ⟨current, hcurrent, hnew⟩
  · rcases hpaymentOwner p hp with hold | hnew
    · obtain ⟨i, hi, hid, horg⟩ := h.paymentOwner p hold
      obtain ⟨j, hj, hjid, hjorg⟩ := howner i hi
      exact ⟨j, hj, hjid.trans hid, hjorg.trans horg⟩
    · exact ⟨current, hcurrent, hnew⟩

/-- An operation that only writes columns of one invoice. -/
theorem Sound.updateOnly {now : DateTime} {db db' : Db} (h : Sound db) {loaded current : Invoice}
    (hloaded : loaded ∈ db.invoices.rows)
    (happly : db.apply now [.updateInvoice loaded current] = .ok db')
    (hsame : SameInvoice current loaded) (hbalanced : Balanced db current) : Sound db' := by
  obtain ⟨db₁, h₁, h₂⟩ := Db.apply_cons.mp happly
  cases h₂
  obtain ⟨hrows, hitems, hpayments⟩ := Write.apply_updateInvoice h₁
  have hitemsOf : ∀ id, db'.itemsOf id = db.itemsOf id := fun id => by
    rw [Db.itemsOf, hitems]; rfl
  have hpaymentsOf : ∀ id, db'.paymentsOf id = db.paymentsOf id := fun id => by
    rw [Db.paymentsOf, hpayments]; rfl
  refine h.update hloaded hrows hsame (fun id _ => hitemsOf id) (fun id _ => hpaymentsOf id)
    (fun t ht => .inl (hitems ▸ ht)) (fun p hp => .inl (hpayments ▸ hp)) ?_
  exact hbalanced.congr rfl (hitemsOf _) (hpaymentsOf _) rfl rfl rfl rfl rfl rfl id
    hbalanced.status

/-! ### Operation by operation -/

section Operations

variable {db db' : Db} {now : DateTime} {loaded : Invoice}

theorem Sound.softDelete (h : Sound db) (hloaded : loaded ∈ db.invoices.rows)
    (happly : db.apply now [.updateInvoice loaded { loaded with isDeleted := true }] = .ok db') :
    Sound db' := by
  have hb := h.balanced loaded hloaded
  refine h.updateOnly hloaded happly ⟨rfl, rfl, rfl, rfl, rfl, rfl⟩ ?_
  exact hb.congr rfl rfl rfl rfl rfl rfl rfl rfl rfl id hb.status

theorem Sound.void (h : Sound db) (hloaded : loaded ∈ db.invoices.rows)
    (happly : db.apply now [.updateInvoice loaded { loaded with status := .void }] = .ok db') :
    Sound db' := by
  have hb := h.balanced loaded hloaded
  refine h.updateOnly hloaded happly ⟨rfl, rfl, rfl, rfl, rfl, rfl⟩ ?_
  exact hb.congr rfl rfl rfl rfl rfl rfl rfl rfl rfl (fun hs => by cases hs) fun hs => by cases hs

/-- A draft has no payments, so once sent it is unpaid. -/
theorem Balanced.paymentStatus_of_draft {i : Invoice} (hb : Balanced db i)
    (hdraft : i.status = .draft) : i.paymentStatus = .unpaid := by
  have hzero : i.amountPaidCents = 0 := by
    rw [hb.amountPaid, Db.paidCents, hb.draft hdraft]
    rfl
  rw [hb.paymentStatus, hzero]
  rfl

theorem Sound.send (h : Sound db) (hloaded : loaded ∈ db.invoices.rows)
    (hdraft : loaded.status = .draft) {key : String}
    (happly : db.apply now
      [.updateInvoice loaded { loaded with status := .sent, pdfS3Key := some key }] = .ok db') :
    Sound db' := by
  have hb := h.balanced loaded hloaded
  refine h.updateOnly hloaded happly ⟨rfl, rfl, rfl, rfl, rfl, rfl⟩ ?_
  refine hb.congr rfl rfl rfl rfl rfl rfl rfl rfl rfl (fun hs => by cases hs) fun _ => ?_
  change InvoiceStatus.sent = nextInvoiceStatus .sent loaded.paymentStatus
  rw [hb.paymentStatus_of_draft hdraft]
  rfl

theorem withStatuses_status {i : Invoice} (h : (withStatuses i).status.isPayable) :
    (withStatuses i).status = nextInvoiceStatus .sent (withStatuses i).paymentStatus := by
  have hpay : i.status.isPayable := by
    rw [← isPayable_nextInvoiceStatus]
    exact h
  exact nextInvoiceStatus_of_isPayable hpay _

theorem withStatuses_draft {i : Invoice} (h : (withStatuses i).status = .draft) :
    i.status = .draft := by
  by_contra hne
  have hpay : (withStatuses i).status.isPayable = i.status.isPayable := isPayable_nextInvoiceStatus
  rw [h] at hpay
  have hnot : ¬i.status.isPayable := by rw [← hpay]; decide
  have hkeep : (withStatuses i).status = i.status := nextInvoiceStatus_of_not_isPayable hnot _
  exact hne (hkeep.symm.trans h)

theorem Sound.pay (h : Sound db) (hloaded : loaded ∈ db.invoices.rows)
    (hpayable : loaded.status.isPayable) {amountCents : ℤ} {payment : InvoicePayment}
    (happly : db.apply now [.updateInvoice loaded (withPayment loaded amountCents),
      .insertPayment payment] = .ok db') (hamount : payment.amountCents = amountCents)
    (hinvoice : payment.invoiceId = loaded.id) (horg : payment.orgId = loaded.orgId) :
    Sound db' := by
  subst hamount
  obtain ⟨db₁, h₁, h₂⟩ := Db.apply_cons.mp happly
  obtain ⟨db₂, h₂, h₃⟩ := Db.apply_cons.mp h₂
  cases h₃
  obtain ⟨hrows, hitems, hpayments⟩ := Write.apply_updateInvoice h₁
  obtain ⟨hpayments', hinvoices', hitems'⟩ := Write.apply_insertPayment h₂
  rw [hpayments] at hpayments'
  have hitemsOf : ∀ id, db'.itemsOf id = db.itemsOf id := fun id => by
    rw [Db.itemsOf, hitems', hitems]; rfl
  have hpaymentsOf := paymentsOf_append hpayments'
  have hb := h.balanced loaded hloaded
  have hdraft : (withPayment loaded payment.amountCents).status ≠ .draft := by
    intro hs
    have hloadedDraft := withStatuses_draft hs
    exact absurd (hloadedDraft ▸ hpayable : InvoiceStatus.draft.isPayable = true) Bool.false_ne_true
  have hsame : SameInvoice (withPayment loaded payment.amountCents) loaded :=
    ⟨rfl, rfl, rfl, rfl, rfl, rfl⟩
  rw [← hinvoices'] at hrows
  refine h.update hloaded hrows hsame
    (fun id _ => hitemsOf id) (fun id hid => ?_) (fun t ht => ?_) (fun p hp => ?_) ?_
  · have hne : payment.invoiceId ≠ id := fun heq => hid (heq.symm.trans hinvoice)
    rw [hpaymentsOf, List.filter_cons_of_neg (by simpa using hne)]
    simp
  · exact .inl (by rw [hitems', hitems] at ht; exact ht)
  · rw [hpayments'] at hp
    rcases List.mem_append.mp hp with hold | hnew
    · exact .inl hold
    · rw [List.mem_singleton.mp hnew]
      exact .inr ⟨hinvoice.symm, horg.symm⟩
  · refine ⟨?_, hb.total, hb.total_nonneg, ?_, rfl, fun hs => absurd hs hdraft,
      withStatuses_status⟩
    · change loaded.subtotalCents = _
      rw [hb.subtotal]
      exact congrArg (fun l => (List.map (·.amountCents) l).sum) (hitemsOf loaded.id).symm
    · change loaded.amountPaidCents + payment.amountCents = db'.paidCents loaded.id
      rw [Db.paidCents, hpaymentsOf, hb.amountPaid, Db.paidCents]
      simp [hinvoice]

/-- The stored amounts are the amounts computed, in the order of the items. -/
theorem amounts_stored (now : DateTime) (items : List InvoiceLineItem) :
    (items.map (InvoiceLineItem.stored now)).map (·.amountCents) = items.map (·.amountCents) := by
  rw [List.map_map]
  rfl

theorem filter_stored_of_forall {items : List InvoiceLineItem} {id : String}
    (h : ∀ i ∈ items, i.invoiceId = id) :
    (items.map (InvoiceLineItem.stored now)).filter (fun i => i.invoiceId == id) =
      items.map (InvoiceLineItem.stored now) := by
  refine List.filter_eq_self.mpr fun i hi => ?_
  obtain ⟨j, hj, rfl⟩ := List.mem_map.mp hi
  exact beq_iff_eq.mpr (h j hj)

theorem filter_stored_of_ne {items : List InvoiceLineItem} {id id' : String}
    (h : ∀ i ∈ items, i.invoiceId = id) (hne : id' ≠ id) :
    (items.map (InvoiceLineItem.stored now)).filter (fun i => i.invoiceId == id') = [] := by
  refine List.filter_eq_nil_iff.mpr fun i hi => ?_
  obtain ⟨j, hj, rfl⟩ := List.mem_map.mp hi
  have hid : j.invoiceId = id := h j hj
  simpa [InvoiceLineItem.stored, hid] using hne.symm

theorem Sound.create (h : Sound db) {orgId : String} {body : InvoiceCreateRequest}
    {invoice : Invoice} {items : List InvoiceLineItem}
    (hbuilt : Built orgId invoice.id body.lineItems items)
    (htotals : computeTotals (items.map (·.amountCents)) body.taxCents body.discountCents =
      .ok (invoice.subtotalCents, invoice.totalCents))
    (horg : invoice.orgId = orgId) (htax : invoice.taxCents = body.taxCents)
    (hdiscount : invoice.discountCents = body.discountCents) (hstatus : invoice.status = .draft)
    (hpaid : invoice.amountPaidCents = 0) (hpayment : invoice.paymentStatus = .unpaid)
    (happly : db.apply now (.insertInvoice invoice :: items.map .insertLineItem) = .ok db') :
    Sound db' := by
  obtain ⟨db₁, h₁, h₂⟩ := Db.apply_cons.mp happly
  obtain ⟨hrows, hfresh, hitems, hpayments⟩ := Write.apply_insertInvoice h₁
  obtain ⟨hitems', hinvoices', hpayments'⟩ := apply_insertLineItems h₂
  rw [hitems] at hitems'
  rw [← hinvoices'] at hrows
  have hitemsOf := itemsOf_append hitems'
  have hpaymentsOf : ∀ id, db'.paymentsOf id = db.paymentsOf id := fun id => by
    rw [Db.paymentsOf, hpayments', hpayments]; rfl
  have hnoItems : db.itemsOf invoice.id = [] := List.filter_eq_nil_iff.mpr fun t ht hid => by
    obtain ⟨i, hi, hii, _⟩ := h.itemOwner t ht
    exact hfresh i hi (hii.trans (beq_iff_eq.mp hid))
  have hnoPayments : db.paymentsOf invoice.id = [] := List.filter_eq_nil_iff.mpr fun p hp hid => by
    obtain ⟨i, hi, hii, _⟩ := h.paymentOwner p hp
    exact hfresh i hi (hii.trans (beq_iff_eq.mp hid))
  have hnew : { invoice with createdAt := now } ∈ db'.invoices.rows := by
    rw [hrows]
    exact List.mem_append_right _ (List.mem_singleton.mpr rfl)
  have hold : ∀ i ∈ db.invoices.rows, i ∈ db'.invoices.rows := fun i hi => by
    rw [hrows]
    exact List.mem_append_left _ hi
  refine ⟨fun i hi => ?_, fun t ht => ?_, fun p hp => ?_⟩
  · rw [hrows] at hi
    rcases List.mem_append.mp hi with hi | hi
    · have hb := h.balanced i hi
      refine hb.congr rfl ?_ (hpaymentsOf _) rfl rfl rfl rfl rfl rfl id hb.status
      rw [hitemsOf, filter_stored_of_ne hbuilt.invoiceId (hfresh i hi), List.append_nil]
    · rw [List.mem_singleton.mp hi]
      obtain ⟨hsub, htotal, hnonneg⟩ := computeTotals_eq_ok htotals
      refine ⟨?_, ?_, hnonneg, ?_, ?_, fun _ => ?_, fun hs => ?_⟩
      · change invoice.subtotalCents = ((db'.itemsOf invoice.id).map (·.amountCents)).sum
        rw [hitemsOf, hnoItems, filter_stored_of_forall hbuilt.invoiceId, List.nil_append,
          amounts_stored]
        exact hsub
      · change invoice.totalCents = invoice.subtotalCents + invoice.taxCents - invoice.discountCents
        rw [htax, hdiscount]
        exact htotal
      · change invoice.amountPaidCents = db'.paidCents invoice.id
        rw [hpaid, Db.paidCents, hpaymentsOf, hnoPayments]
        rfl
      · change invoice.paymentStatus = nextPaymentStatus invoice.amountPaidCents invoice.totalCents
        rw [hpayment, hpaid]
        rfl
      · change db'.paymentsOf invoice.id = []
        rw [hpaymentsOf, hnoPayments]
      · change invoice.status.isPayable = true at hs
        rw [hstatus] at hs
        exact absurd hs Bool.false_ne_true
  · rw [hitems'] at ht
    rcases List.mem_append.mp ht with ht | ht
    · obtain ⟨i, hi, hid⟩ := h.itemOwner t ht
      exact ⟨i, hold i hi, hid⟩
    · obtain ⟨j, hj, rfl⟩ := List.mem_map.mp ht
      exact ⟨_, hnew, (hbuilt.invoiceId j hj).symm, horg.trans (hbuilt.orgId j hj).symm⟩
  · rw [hpayments', hpayments] at hp
    obtain ⟨i, hi, hid⟩ := h.paymentOwner p hp
    exact ⟨i, hold i hi, hid⟩

/-- Replacing an invoice's line items: exactly the rows of that invoice go. -/
theorem Sound.filter_deleted (h : Sound db) (hloaded : loaded ∈ db.invoices.rows)
    {old : List InvoiceLineItem} (hold : old.Perm (db.selectItems loaded.orgId loaded.id)) :
    db.lineItems.rows.filter (fun item => !(old.map (·.id)).contains item.id) =
      db.lineItems.rows.filter fun item => !(item.invoiceId == loaded.id) := by
  have hmem : ∀ t, t ∈ old ↔ t ∈ db.lineItems.rows ∧ t.invoiceId = loaded.id := fun t => by
    rw [hold.mem_iff, h.selectItems_eq hloaded, Db.itemsOf, List.mem_filter, beq_iff_eq]
  refine List.filter_congr fun t ht => congrArg (!·) ?_
  rw [Bool.eq_iff_iff, List.contains_iff_mem, beq_iff_eq]
  constructor
  · intro hid
    obtain ⟨u, hu, hut⟩ := List.mem_map.mp hid
    obtain ⟨hu, hinvoice⟩ := (hmem u).mp hu
    have heq : u = t := db.lineItems.eq_of_clash hu ht (by simp [lineItemSchema, hut])
    rwa [← heq]
  · intro hinvoice
    exact List.mem_map.mpr ⟨t, (hmem t).mpr ⟨ht, hinvoice⟩, rfl⟩

/-- The line items after an update of `loaded`, compared with the ones before. -/
structure ItemsEdited (before after : Table lineItemSchema) (loaded : Invoice)
    (items : List InvoiceLineItem) : Prop where
  others : ∀ id ≠ loaded.id, after.rows.filter (fun t => t.invoiceId == id) =
    before.rows.filter fun t => t.invoiceId == id
  sum : ((after.rows.filter fun t => t.invoiceId == loaded.id).map (·.amountCents)).sum =
    (items.map (·.amountCents)).sum
  owner : ∀ t ∈ after.rows, t ∈ before.rows ∨ loaded.id = t.invoiceId ∧ loaded.orgId = t.orgId

theorem Sound.itemsEdited (h : Sound db) (hloaded : loaded ∈ db.invoices.rows)
    {body : InvoiceUpdateRequest} {items : List InvoiceLineItem} {writes : List Write} {db₁ : Db}
    (hitems : EditsItems db loaded.orgId loaded.id body items writes)
    (hbefore : db₁.lineItems = db.lineItems) (happly : db₁.apply now writes = .ok db') :
    ItemsEdited db.lineItems db'.lineItems loaded items ∧ db'.invoices = db₁.invoices ∧
      db'.payments = db₁.payments ∧ (body.lineItems = none → db'.lineItems = db.lineItems) := by
  unfold EditsItems at hitems
  cases hbody : body.lineItems with
  | none =>
    rw [hbody] at hitems
    obtain ⟨hperm, rfl⟩ := hitems
    cases happly
    rw [h.selectItems_eq hloaded] at hperm
    rw [hbefore]
    exact ⟨⟨fun _ _ => rfl, (hperm.map _).sum_eq.symm, fun t ht => .inl ht⟩, rfl, rfl, fun _ => rfl⟩
  | some new =>
    rw [hbody] at hitems
    obtain ⟨old, hold, hbuilt, rfl⟩ := hitems
    obtain ⟨db₂, h₂, h₃⟩ := Db.apply_append.mp happly
    obtain ⟨hrows₂, hinvoices₂, hpayments₂⟩ := apply_deleteLineItems h₂
    obtain ⟨hrows₃, hinvoices₃, hpayments₃⟩ := apply_insertLineItems h₃
    rw [hbefore, h.filter_deleted hloaded hold] at hrows₂
    rw [hrows₂] at hrows₃
    refine ⟨⟨fun id hid => ?_, ?_, fun t ht => ?_⟩, hinvoices₃.trans hinvoices₂,
      hpayments₃.trans hpayments₂, fun hnone => by cases hnone⟩
    · rw [hrows₃, List.filter_append, filter_stored_of_ne hbuilt.invoiceId hid, List.append_nil,
        List.filter_filter]
      refine List.filter_congr fun t _ => ?_
      by_cases ht : t.invoiceId = id
      · simp [ht, hid]
      · simp [ht]
    · rw [hrows₃, List.filter_append, filter_stored_of_forall hbuilt.invoiceId, List.filter_filter,
        List.filter_eq_nil_iff.mpr fun t _ => by simp, List.nil_append, amounts_stored]
    · rw [hrows₃] at ht
      rcases List.mem_append.mp ht with ht | ht
      · exact .inl (List.mem_filter.mp ht).1
      · obtain ⟨j, hj, rfl⟩ := List.mem_map.mp ht
        exact .inr ⟨(hbuilt.invoiceId j hj).symm, (hbuilt.orgId j hj).symm⟩

/-- A body that asks for no recomputation leaves the amounts and the line items alone. -/
theorem withFields_of_not_recomputes (loaded : Invoice) {body : InvoiceUpdateRequest}
    (h : ¬recomputes body) :
    (withFields body loaded).taxCents = loaded.taxCents ∧
      (withFields body loaded).discountCents = loaded.discountCents ∧ body.lineItems = none := by
  simp only [recomputes, Bool.or_eq_true, not_or, Bool.not_eq_true, Option.isSome_eq_false_iff,
    Option.isNone_iff_eq_none] at h
  obtain ⟨⟨htax, hdiscount⟩, hitems⟩ := h
  simp [withFields, setField, htax, hdiscount, hitems]

theorem withTotals_eq_ok {i current : Invoice} {items : List InvoiceLineItem}
    (h : withTotals i items = .ok current) :
    ∃ subtotal total, computeTotals (items.map (·.amountCents)) i.taxCents i.discountCents =
        .ok (subtotal, total) ∧
      current = withStatuses { i with subtotalCents := subtotal, totalCents := total } := by
  unfold withTotals at h
  cases htotals : computeTotals (items.map (·.amountCents)) i.taxCents i.discountCents with
  | error e => rw [htotals] at h; cases h
  | ok r => rw [htotals] at h; cases h; exact ⟨r.1, r.2, rfl, rfl⟩

theorem sameInvoice_recompute {body : InvoiceUpdateRequest} {items : List InvoiceLineItem}
    {current : Invoice} (h : recompute body (withFields body loaded) items = .ok current) :
    SameInvoice current loaded := by
  unfold recompute at h
  split at h
  · obtain ⟨_, _, _, rfl⟩ := withTotals_eq_ok h
    exact ⟨rfl, rfl, rfl, rfl, rfl, rfl⟩
  · cases h
    exact ⟨rfl, rfl, rfl, rfl, rfl, rfl⟩

/-- An updated invoice is balanced against the line items it was computed from. -/
theorem Balanced.recompute (hb : Balanced db loaded) {body : InvoiceUpdateRequest}
    {items : List InvoiceLineItem} {current : Invoice}
    (hcurrent : recompute body (withFields body loaded) items = .ok current)
    (hkept : body.lineItems = none → db'.itemsOf loaded.id = db.itemsOf loaded.id)
    (hitems : ((db'.itemsOf loaded.id).map (·.amountCents)).sum = (items.map (·.amountCents)).sum)
    (hpayments : db'.paymentsOf loaded.id = db.paymentsOf loaded.id) : Balanced db' current := by
  unfold Invoicing.recompute at hcurrent
  split at hcurrent
  · obtain ⟨subtotal, total, htotals, rfl⟩ := withTotals_eq_ok hcurrent
    obtain ⟨hsub, htotal, hnonneg⟩ := computeTotals_eq_ok htotals
    refine ⟨?_, htotal, hnonneg, ?_, rfl, fun hs => ?_, withStatuses_status⟩
    · change subtotal = ((db'.itemsOf loaded.id).map (·.amountCents)).sum
      rw [hitems]
      exact hsub
    · change loaded.amountPaidCents = db'.paidCents loaded.id
      rw [hb.amountPaid, Db.paidCents, Db.paidCents, hpayments]
    · change db'.paymentsOf loaded.id = []
      rw [hpayments]
      have hdraft := withStatuses_draft hs
      exact hb.draft hdraft
  · next hno =>
    cases hcurrent
    obtain ⟨htax, hdiscount, hnone⟩ := withFields_of_not_recomputes loaded hno
    exact hb.congr rfl (hkept hnone) hpayments rfl htax hdiscount rfl rfl rfl id hb.status

theorem Sound.edit (h : Sound db) (hloaded : loaded ∈ db.invoices.rows)
    {body : InvoiceUpdateRequest} {items : List InvoiceLineItem} {writes : List Write}
    {current : Invoice} (hitems : EditsItems db loaded.orgId loaded.id body items writes)
    (hcurrent : recompute body (withFields body loaded) items = .ok current)
    (happly : db.apply now (.updateInvoice loaded current :: writes) = .ok db') : Sound db' := by
  have hsame := sameInvoice_recompute hcurrent
  obtain ⟨db₁, h₁, h₂⟩ := Db.apply_cons.mp happly
  obtain ⟨hrows, hlineItems, hpayments⟩ := Write.apply_updateInvoice h₁
  obtain ⟨hedited, hinvoices', hpayments', hkept⟩ := h.itemsEdited hloaded hitems hlineItems h₂
  rw [← hinvoices'] at hrows
  rw [hpayments] at hpayments'
  have hpaymentsOf : ∀ id, db'.paymentsOf id = db.paymentsOf id := fun id => by
    rw [Db.paymentsOf, hpayments']; rfl
  refine h.update hloaded hrows hsame (fun id hid => hedited.others id (hsame.id ▸ hid))
    (fun id _ => hpaymentsOf id) (fun t ht => ?_) (fun p hp => .inl (hpayments' ▸ hp)) ?_
  · rw [hsame.id, hsame.orgId]
    exact hedited.owner t ht
  · refine (h.balanced loaded hloaded).recompute hcurrent (fun hnone => ?_) hedited.sum
      (hpaymentsOf _)
    rw [Db.itemsOf, hkept hnone]
    rfl

end Operations

/-- **Every operation keeps every invoice balanced.** -/
theorem Sound.transition {db db' : Db} {op : Op} (h : Sound db) (ht : Transition db op db') :
    Sound db' := by
  cases ht with
  | create hbuilt htotals horg htax hdiscount hstatus hpaid hpayment _ happly =>
    exact h.create hbuilt htotals horg htax hdiscount hstatus hpaid hpayment happly
  | update hloaded _ hitems hcurrent happly =>
    obtain ⟨hmem, rfl, rfl, _⟩ := hloaded
    exact h.edit hmem hitems hcurrent happly
  | softDelete hloaded happly => exact h.softDelete hloaded.mem happly
  | send hloaded hstatus happly => exact h.send hloaded.mem hstatus happly
  | pay hloaded hstatus happly =>
    obtain ⟨hmem, rfl, rfl, _⟩ := hloaded
    exact h.pay hmem hstatus happly rfl rfl rfl
  | void hloaded _ happly => exact h.void hloaded.mem happly

theorem sound_empty : Sound Db.empty := by
  constructor <;> exact fun _ h => absurd h List.not_mem_nil

theorem sound_of_reachable {db : Db} (h : Reachable db) : Sound db :=
  h.induction sound_empty fun _ _ _ hsound ht => hsound.transition ht

/-- **Every invoice of every reachable state is balanced.** -/
theorem balanced_of_reachable {db : Db} (h : Reachable db) {i : Invoice}
    (hi : i ∈ db.invoices.rows) : Balanced db i :=
  (sound_of_reachable h).balanced i hi

/-! ### One invoice, from its creation to its payment -/

theorem one_pos_coeff : 0 < (⟨1, 0⟩ : Decimal).coeff := by decide

theorem forty_pos : (0 : ℤ) < 40 := by decide

/-- An invoice over 100 cents. -/
def hundredCents : InvoiceCreateRequest where
  customerEmail := "ada@example.com"
  customerName := "Ada"
  customerCompany := none
  invoiceDate := ⟨2026, 1, 1⟩
  dueDate := none
  paymentTerms := none
  lineItems := [⟨"Work", ⟨1, 0⟩, 100, one_pos_coeff⟩]
  taxCents := 0
  discountCents := 0
  notes := none
  lineItems_ne_nil := List.cons_ne_nil _ _

/-- A payment of `amountCents` with a key. -/
def payment (amountCents : ℤ) (idempotencyKey : Option String) (h : 0 < amountCents) :
    RecordPaymentRequest where
  amountCents := amountCents
  paymentDate := ⟨2026, 1, 1⟩
  paymentMethod := "manual"
  reference := none
  notes := none
  idempotencyKey := idempotencyKey
  amountCents_pos := h

/-- The invoice is created, sent, and paid in full. Its identifier is `"c4"`. -/
def createSendPay : List Request :=
  [.calm (.create "org" "ada" hundredCents) "c", .calm (.send "org" "c4" "ada" "ada@example.com") "s",
    .calm (.pay "org" "c4" "ada" (payment 100 none (by decide))) "p"]

/-- The row that is left. -/
def paidInvoice : Invoice where
  id := "c4"
  orgId := "org"
  invoiceNumber := "INV-2026-000001"
  status := .paid
  customerEmail := "ada@example.com"
  customerName := "Ada"
  customerCompany := none
  invoiceDate := ⟨2026, 1, 1⟩
  dueDate := none
  paymentTerms := none
  subtotalCents := 100
  taxCents := 0
  discountCents := 0
  totalCents := 100
  amountPaidCents := 100
  paymentStatus := .paid
  currencyCode := "USD"
  notes := none
  pdfS3Key := some "org/invoicing/20260101-000000-000000_INV-2026-000001.pdf"
  isDeleted := false
  createdBy := "ada"
  createdAt := ⟨⟨2026, 1, 1⟩, 0, 0, 0, 0⟩

/-- The state before the payment. -/
def sentDb : Db := runAll Db.empty (createSendPay.take 2)

/-- The row before the payment. -/
def sentInvoice : Invoice :=
  { paidInvoice with status := .sent, amountPaidCents := 0, paymentStatus := .unpaid }

set_option maxRecDepth 10000 in
theorem sentInvoice_mem : sentInvoice ∈ sentDb.invoices.rows := by decide

set_option maxRecDepth 10000 in
theorem balanced_paidInvoice :
    paidInvoice ∈ (runAll Db.empty createSendPay).invoices.rows ∧
      Balanced (runAll Db.empty createSendPay) paidInvoice :=
  have hmem : paidInvoice ∈ (runAll Db.empty createSendPay).invoices.rows := by decide
  ⟨hmem, balanced_of_reachable ⟨createSendPay, rfl⟩ hmem⟩

end A2ZCore.Invoicing
