import A2ZCore.Invoicing.Invariants

/-!
# Replaying a payment

A `record_payment` request with an idempotency key that has succeeded once may be sent again. The
payment it recorded is never removed, so the table's unique index keeps a replay from recording a
second one, whatever happens: `db_exec_of_recorded`. Whether the replay also *returns* the payment
is another matter. The status of the invoice is checked before the key is looked up, and an empty
key is not looked up at all; `replayed_iff` says exactly when it does.

## Main definitions

* `Recorded` — a payment with the request's key is in the table
* `Issued` — the invoice is in the table and no longer a draft
* `Replayed` — a replay changes nothing and, when no call fails, returns the payment

## Main results

* `recorded_of_success` — what a request that succeeded leaves
* `replayed_iff` — when a request that succeeded can be replayed
-/

namespace A2ZCore.Invoicing

open Interaction Interaction.Proc Interaction.Contract Relational

/-- The payment is in the table, under the org and the key. -/
structure Recorded (db : Db) (orgId : String) (key : Option String) (payment : InvoicePayment) :
    Prop where
  mem : payment ∈ db.payments.rows
  orgId : payment.orgId = orgId
  key : payment.idempotencyKey = key

/-- The invoice is in the table, and has been sent. -/
def Issued (db : Db) (orgId invoiceId : String) : Prop :=
  ∃ i ∈ db.invoices.rows, i.orgId = orgId ∧ i.id = invoiceId ∧ i.status ≠ .draft

/-! ### Payments stay, and sent invoices stay sent -/

section Stay

variable {db db' : Db} {orgId invoiceId : String}

theorem Recorded.transition {key : Option String} {payment : InvoicePayment} {op : Op}
    (h : Recorded db orgId key payment) (ht : Transition db op db') :
    Recorded db' orgId key payment := by
  obtain ⟨hmem, horg, hkey⟩ := h
  refine ⟨?_, horg, hkey⟩
  cases ht with
  | create _ _ _ _ _ _ _ _ _ happly =>
    obtain ⟨db₁, h₁, h₂⟩ := Db.apply_cons.mp happly
    rw [(apply_insertLineItems h₂).2.2, (Write.apply_insertInvoice h₁).2.2.2]
    exact hmem
  | update _ _ hitems _ happly =>
    obtain ⟨db₁, h₁, h₂⟩ := Db.apply_cons.mp happly
    rw [(apply_of_editsItems hitems h₂).2, (Write.apply_updateInvoice h₁).2.2]
    exact hmem
  | softDelete _ happly | send _ _ happly | void _ _ happly =>
    obtain ⟨db₁, h₁, h₂⟩ := Db.apply_cons.mp happly
    cases h₂
    rw [(Write.apply_updateInvoice h₁).2.2]
    exact hmem
  | pay _ _ happly =>
    obtain ⟨db₁, h₁, h₂⟩ := Db.apply_cons.mp happly
    obtain ⟨db₂, h₂, h₃⟩ := Db.apply_cons.mp h₂
    cases h₃
    rw [(Write.apply_insertPayment h₂).1, (Write.apply_updateInvoice h₁).2.2]
    exact List.mem_append_left _ hmem

/-- An update of one invoice that does not make it a draft again. -/
theorem Issued.update (h : Issued db orgId invoiceId) {loaded current : Invoice}
    (hloaded : loaded ∈ db.invoices.rows)
    (hrows : db'.invoices.rows = db.invoices.rows.map fun row =>
      if row.id = current.id then patch loaded current row else row)
    (hsame : SameInvoice current loaded) (hdraft : current.status = .draft → loaded.status = .draft) :
    Issued db' orgId invoiceId := by
  obtain ⟨i, hi, horg, hid, hne⟩ := h
  rw [rows_update_loaded hloaded hsame] at hrows
  by_cases hcurrent : i.id = current.id
  · have hil : i = loaded := invoice_eq_of_id db hi hloaded (hcurrent.trans hsame.id)
    subst hil
    refine ⟨current, ?_, hsame.orgId.trans horg, hsame.id.trans hid, fun hs => hne (hdraft hs)⟩
    rw [hrows]
    exact List.mem_map.mpr ⟨i, hi, if_pos hcurrent⟩
  · refine ⟨i, ?_, horg, hid, hne⟩
    rw [hrows]
    exact List.mem_map.mpr ⟨i, hi, if_neg hcurrent⟩

theorem draft_of_recompute {body : InvoiceUpdateRequest} {items : List InvoiceLineItem}
    {loaded current : Invoice} (h : recompute body (withFields body loaded) items = .ok current)
    (hdraft : current.status = .draft) : loaded.status = .draft := by
  unfold recompute at h
  split at h
  · obtain ⟨_, _, _, rfl⟩ := withTotals_eq_ok h
    have hbefore := withStatuses_draft hdraft
    exact hbefore
  · cases h
    exact hdraft

theorem Issued.transition {op : Op} (h : Issued db orgId invoiceId)
    (ht : Transition db op db') : Issued db' orgId invoiceId := by
  cases ht with
  | create _ _ _ _ _ _ _ _ _ happly =>
    obtain ⟨i, hi, hrest⟩ := h
    obtain ⟨db₁, h₁, h₂⟩ := Db.apply_cons.mp happly
    refine ⟨i, ?_, hrest⟩
    rw [(apply_insertLineItems h₂).2.1, (Write.apply_insertInvoice h₁).1]
    exact List.mem_append_left _ hi
  | update hloaded _ hitems hcurrent happly =>
    obtain ⟨db₁, h₁, h₂⟩ := Db.apply_cons.mp happly
    refine h.update hloaded.mem ?_ (sameInvoice_recompute hcurrent) (draft_of_recompute hcurrent)
    rw [(apply_of_editsItems hitems h₂).1]
    exact (Write.apply_updateInvoice h₁).1
  | softDelete hloaded happly =>
    obtain ⟨db₁, h₁, h₂⟩ := Db.apply_cons.mp happly
    cases h₂
    exact h.update hloaded.mem (Write.apply_updateInvoice h₁).1 ⟨rfl, rfl, rfl, rfl, rfl, rfl⟩ id
  | send hloaded _ happly | void hloaded _ happly =>
    obtain ⟨db₁, h₁, h₂⟩ := Db.apply_cons.mp happly
    cases h₂
    exact h.update hloaded.mem (Write.apply_updateInvoice h₁).1 ⟨rfl, rfl, rfl, rfl, rfl, rfl⟩
      fun hs => by cases hs
  | pay hloaded _ happly =>
    obtain ⟨db₁, h₁, h₂⟩ := Db.apply_cons.mp happly
    obtain ⟨db₂, h₂, h₃⟩ := Db.apply_cons.mp h₂
    cases h₃
    have hrows := (Write.apply_updateInvoice h₁).1
    rw [← (Write.apply_insertPayment h₂).2.1] at hrows
    refine h.update hloaded.mem hrows ⟨rfl, rfl, rfl, rfl, rfl, rfl⟩ fun hs => ?_
    have hbefore := withStatuses_draft hs
    exact hbefore

end Stay

/-! ### The table keeps a replay from recording a second payment -/

/-- Wherever a payment under a key is in the table, a request with the key records nothing. -/
theorem db_exec_of_recorded {db : Db} {orgId invoiceId userId : String}
    {body : RecordPaymentRequest} {payment : InvoicePayment}
    (h : Recorded db orgId body.idempotencyKey payment) (hkey : body.idempotencyKey.isSome)
    (o : Oracle Choice) (core : Core.World) :
    (exec Call.answer (recordPayment orgId invoiceId userId body) o ⟨core, db⟩).2.db = db := by
  rw [← exec_bind_ret _ () o]
  rcases exec_op (.pay orgId invoiceId userId body) o ⟨core, db⟩ with hsame | htransition
  · exact hsame
  · exfalso
    generalize World.db (exec _ _ _ _).2 = db' at htransition
    cases htransition with
    | pay _ _ happly =>
      obtain ⟨db₁, h₁, h₂⟩ := Db.apply_cons.mp happly
      obtain ⟨db₂, h₂, h₃⟩ := Db.apply_cons.mp h₂
      obtain ⟨t, ht, rfl⟩ := map_eq_ok h₂
      have hmem : payment ∈ db₁.payments.rows := by
        rw [(Write.apply_updateInvoice h₁).2.2]
        exact h.mem
      have hclash := Table.clash_of_insert ht hmem
      simp [paymentSchema, newPayment, h.orgId, h.key, hkey] at hclash

/-! ### A request that succeeds -/

/-- What others may do while a request runs, when they leave the database alone. -/
def serially (admits : Call → Choice → World → Prop) :
    Contract Call Call.Resp PyErr Choice World where
  answer := Call.answer
  rely w w' := w'.db = w.db ∧ w'.core.memberships = w.core.memberships
  admits := admits
  guar _ _ _ _ := True
  rely_refl _ := ⟨rfl, rfl⟩
  rely_trans h h' := ⟨h'.1.trans h.1, h'.2.trans h.2⟩

theorem rely_answer_of_quiet (admits : Call → Choice → World → Prop) {c : Call} (hc : c.Quiet)
    (x : Choice) (w : World) : (serially admits).rely w (c.answer x w).2 := by
  refine ⟨db_answer_of_quiet hc x w, ?_⟩
  rcases remote_answer c x w with h | ⟨c', rfl, h⟩
  · rw [h]
  · rw [h]
    exact Core.memberships_answer c' x.toChoice w.core

section Rules

variable {admits : Call → Choice → World → Prop} {α β : Type} {w : World}
  {Q : Except PyErr β → World → Prop}

/-- A part of the program that commits nothing. -/
theorem serially_bind {p : Prog α} {f : α → Prog β} (hp : p.Calls Call.Quiet)
    (hf : ∀ a w', (serially admits).rely w w' → (serially admits).wp (f a) w' Q)
    (herror : ∀ e w', Q (.error e) w') : (serially admits).wp (p.bind f) w Q :=
  wp_bind (wp_of_calls (fun _ hc x w' _ => ⟨trivial, rely_answer_of_quiet _ hc x w'⟩) hp
    p.returns_true (fun a w' hw _ => hf a w' hw) fun e w' _ => herror e w')

/-- One call, by the reply it gets. -/
theorem serially_run {c : Call} {f : c.Resp → Prog β}
    (hf : ∀ x w', (serially admits).rely w w' → admits c x w' →
      (serially admits).next f Q (c.answer x w').1 (c.answer x w').2) :
    (serially admits).wp ((run c).bind f) w Q :=
  wp_bind (wp_perform fun w' hw x hx => ⟨trivial, hf x w' hw hx⟩)

/-- Loading an invoice, when a failure is no concern. -/
theorem serially_load {orgId invoiceId : String} {f : Invoice → Prog β}
    (hf : ∀ loaded w', (serially admits).rely w w' → Loaded w.db orgId invoiceId loaded →
      (serially admits).wp (f loaded) w' Q) (herror : ∀ e w', Q (.error e) w') :
    (serially admits).wp ((loadInvoice orgId invoiceId).bind f) w Q := by
  unfold loadInvoice
  rw [bind_eq, Proc.bind_assoc]
  refine serially_run fun x w' hw _ => ?_
  have hrely := (serially admits).rely_trans hw
    (rely_answer_of_quiet _ (c := .selectInvoice orgId invoiceId) trivial x w')
  cases hr : ((Call.selectInvoice orgId invoiceId).answer x w').1 with
  | error e => exact herror _ _
  | ok found =>
    cases found with
    | none => exact herror _ _
    | some loaded =>
      refine hf loaded _ hrely ?_
      rw [← hw.1]
      exact loaded_of_answer hr rfl

end Rules

/-- What a request that succeeded says about the state before it and the state after it. -/
structure Succeeded (before after : Db) (orgId invoiceId : String) (body : RecordPaymentRequest)
    (payment : InvoicePayment) : Prop where
  payable : ∃ i, Loaded before orgId invoiceId i ∧ i.status.isPayable
  issued : Issued after orgId invoiceId
  recorded : Recorded after orgId body.idempotencyKey payment
  answers : truthy body.idempotencyKey ≠ none ∧ payment ∈ before.payments.rows ∨
    payment.invoiceId = invoiceId ∧ payment.amountCents = body.amountCents
  grew : truthy body.idempotencyKey = none →
    after.payments.rows.length = before.payments.rows.length + 1

theorem issued_of_payable {db : Db} {orgId invoiceId : String} {i : Invoice}
    (h : Loaded db orgId invoiceId i) (hstatus : i.status.isPayable) :
    Issued db orgId invoiceId := by
  refine ⟨i, h.mem, h.orgId, h.id, fun hs => ?_⟩
  rw [hs] at hstatus
  exact Bool.false_ne_true hstatus

/-- The payment a commit inserted is the one that is read back by its identifier. -/
theorem eq_of_refresh {db : Db} {orgId invoiceId userId id : String}
    {body : RecordPaymentRequest} {now : DateTime} {p : InvoicePayment}
    (hnew : { newPayment id orgId invoiceId userId body with recordedAt := now } ∈ db.payments.rows)
    (hp : db.payments.rows.find? (fun p => p.id == id) = some p) :
    p = { newPayment id orgId invoiceId userId body with recordedAt := now } := by
  have hmem := List.mem_of_find?_eq_some hp
  have hid : p.id = id := by simpa using List.find?_some hp
  exact db.payments.eq_of_clash hmem hnew (by simp [paymentSchema, newPayment, hid])

/-- The part of `record_payment` after the lookup has found nothing. -/
theorem succeeded_of_commit {db db' : Db} {orgId invoiceId userId id : String}
    {body : RecordPaymentRequest} {loaded : Invoice} {now : DateTime}
    (hloaded : Loaded db orgId invoiceId loaded) (hstatus : loaded.status.isPayable)
    (happly : db.apply now [.updateInvoice loaded (withPayment loaded body.amountCents),
      .insertPayment (newPayment id orgId invoiceId userId body)] = .ok db')
    {p : InvoicePayment} (hp : db'.payments.rows.find? (fun p => p.id == id) = some p) :
    Succeeded db db' orgId invoiceId body p := by
  have hissued : Issued db' orgId invoiceId :=
    (issued_of_payable hloaded hstatus).transition
      (show Transition db (.pay orgId invoiceId userId body) db' from .pay hloaded hstatus happly)
  obtain ⟨db₁, h₁, h₂⟩ := Db.apply_cons.mp happly
  obtain ⟨db₂, h₂, h₃⟩ := Db.apply_cons.mp h₂
  cases h₃
  have hrows := (Write.apply_insertPayment h₂).1
  rw [(Write.apply_updateInvoice h₁).2.2] at hrows
  have hnew : { newPayment id orgId invoiceId userId body with recordedAt := now } ∈
      db'.payments.rows := by
    rw [hrows]
    exact List.mem_append_right _ (List.mem_singleton.mpr rfl)
  obtain rfl := eq_of_refresh hnew hp
  refine ⟨⟨loaded, hloaded, hstatus⟩, hissued, ⟨hnew, rfl, rfl⟩, .inr ⟨rfl, rfl⟩, fun _ => ?_⟩
  rw [hrows, List.length_append]
  rfl

/-- The rest of `record_payment` from the reply to its commit on. -/
theorem after_commit {w w₁ : World} {orgId invoiceId userId id : String}
    {body : RecordPaymentRequest} {loaded : Invoice} {x : Choice}
    (hloaded : Loaded w.db orgId invoiceId loaded) (hstatus : loaded.status.isPayable)
    (hw : w₁.db = w.db) {writes : List Write}
    (hwrites : writes = [.updateInvoice loaded (withPayment loaded body.amountCents),
      .insertPayment (newPayment id orgId invoiceId userId body)])
    {f : Invoice → InvoicePayment → Prog Core.AuditEvent}
    (hf : ∀ invoice payment, (f invoice payment).Calls Call.Quiet) :
    (serially fun _ _ _ => True).next (fun _ => (run (.refreshInvoice invoiceId)).bind fun invoice =>
        (run (.refreshPayment id)).bind fun payment =>
          (f invoice payment).bind fun _ => .ret (invoice, payment))
      (fun r w' => ∀ a, r = .ok a → Succeeded w.db w'.db orgId invoiceId body a.2)
      ((Call.commit writes).answer x w₁).1 ((Call.commit writes).answer x w₁).2 := by
  subst hwrites
  have herror : ∀ (e : PyErr) (w' : World) (a : Invoice × InvoicePayment),
      Except.error e = .ok a → Succeeded w.db w'.db orgId invoiceId body a.2 :=
    fun e w' a h => by cases h
  rcases answer_commit_cases _ x w₁ with ⟨e, he⟩ | ⟨db', happly, he | ⟨e, he⟩⟩
  case inl => rw [he]; exact herror _ _
  case inr.inr => rw [he]; exact herror _ _
  rw [he]
  rw [hw] at happly
  refine serially_bind (Calls.perform trivial) (fun invoice w₂ h₂ => ?_) herror
  refine serially_run fun y w₃ h₃ _ => ?_
  have hdb₃ : w₃.db = db' := h₃.1.trans h₂.1
  have hquiet := db_answer_of_quiet (c := .refreshPayment id) trivial y w₃
  cases hr : ((Call.refreshPayment id).answer y w₃).1 with
  | error e => exact herror _ _
  | ok p =>
    have hp : db'.payments.rows.find? (fun p => p.id == id) = some p := by
      have hreply := reply_of_read hr
      rw [hdb₃] at hreply
      unfold refreshed at hreply
      split at hreply
      · next q hq => cases hreply; exact hq
      · cases hreply
    refine serially_bind (hf _ _) (fun _ w₄ h₄ a ha => ?_) herror
    cases ha
    have hdb₄ : w₄.db = db' := h₄.1.trans (hquiet.trans hdb₃)
    rw [hdb₄]
    exact succeeded_of_commit hloaded hstatus happly hp

theorem wp_recordPayment (orgId invoiceId userId : String) (body : RecordPaymentRequest)
    (w : World) :
    (serially fun _ _ _ => True).wp (recordPayment orgId invoiceId userId body) w
      fun r w' => ∀ a, r = .ok a → Succeeded w.db w'.db orgId invoiceId body a.2 := by
  have herror : ∀ (e : PyErr) (w' : World) (a : Invoice × InvoicePayment),
      Except.error e = .ok a → Succeeded w.db w'.db orgId invoiceId body a.2 :=
    fun e w' a h => by cases h
  refine serially_bind (calls_quiet_requireMutationRole _ _) (fun _ w₁ h₁ => ?_) herror
  refine serially_load (fun loaded w₂ h₂ hloaded => ?_) herror
  rw [h₁.1] at hloaded
  have hdb₂ : w₂.db = w.db := h₂.1.trans h₁.1
  by_cases hstatus : loaded.status.isPayable
  case neg =>
    rw [assertCanRecordPayment, if_pos hstatus]
    exact herror _ _
  rw [assertCanRecordPayment, if_neg (not_not.mpr hstatus)]
  unfold findReplayed
  cases hkey : truthy body.idempotencyKey with
  | none =>
    show (serially _).wp (Proc.bind (core (Core.run .uuid4)) _) w₂ _
    refine serially_bind (calls_quiet_core _) (fun id w₃ h₃ => ?_) herror
    refine serially_run fun x w₄ h₄ _ => ?_
    have hdb₄ : w₄.db = w.db := h₄.1.trans (h₃.1.trans hdb₂)
    exact after_commit hloaded hstatus hdb₄ rfl fun _ _ => calls_quiet_core _
  | some key =>
    show (serially _).wp (Proc.bind (run (.selectPaymentByKey orgId key)) _) w₂ _
    refine serially_run fun x w₃ h₃ _ => ?_
    have hdb₃ : w₃.db = w.db := h₃.1.trans hdb₂
    have hquiet := rely_answer_of_quiet (fun _ _ _ => True)
      (c := .selectPaymentByKey orgId key) trivial x w₃
    cases hr : ((Call.selectPaymentByKey orgId key).answer x w₃).1 with
    | error e => exact herror _ _
    | ok found =>
      cases found with
      | none =>
        refine serially_bind (calls_quiet_core _) (fun id w₄ h₄ => ?_) herror
        refine serially_run fun x w₅ h₅ _ => ?_
        have hdb₅ : w₅.db = w.db := h₅.1.trans (h₄.1.trans (hquiet.1.trans hdb₃))
        exact after_commit hloaded hstatus hdb₅ rfl fun _ _ => calls_quiet_core _
      | some existing =>
        intro a ha
        cases ha
        rw [hquiet.1, hdb₃]
        have hmem := mem_of_scalarOneOrNone (reply_of_read hr)
        rw [hdb₃, List.mem_filter, Bool.and_eq_true, beq_iff_eq, beq_iff_eq] at hmem
        obtain ⟨hmem, horg, hpkey⟩ := hmem
        have hbody : body.idempotencyKey = some key := (Option.filter_eq_some_iff.mp hkey).1
        exact ⟨⟨loaded, hloaded, hstatus⟩, issued_of_payable hloaded hstatus,
          ⟨hmem, horg, hpkey.trans hbody.symm⟩, .inl ⟨by simp [hkey], hmem⟩, fun hnone => by rw [hkey] at hnone; cases hnone⟩

/-! ### A replay that no failure disturbs -/

/-- No call of the run fails or is lost. -/
def Healthy (o : Oracle Choice) : Prop := ∀ n, ∃ x, o n = some x ∧ x.fate = .ok

/-- The user may change the org's invoices. -/
def CanMutate (core : Core.World) (userId orgId : String) : Prop :=
  ∃ m, core.memberships userId orgId = some m ∧ m.role ∈ mutationRoles

/-- The calls that go through. -/
def calm (_ : Call) (x : Choice) (_ : World) : Prop := x.fate = .ok

section Calm

variable {orgId invoiceId userId key : String} {β : Type} {w : World}
  {Q : Except PyErr β → World → Prop}

theorem calm_requireMutationRole {f : Core.Membership → Prog β} (h : CanMutate w.core userId orgId)
    (hf : ∀ m w', (serially calm).rely w w' → (serially calm).wp (f m) w' Q) :
    (serially calm).wp ((requireMutationRole userId orgId).bind f) w Q := by
  obtain ⟨m, hm, hrole⟩ := h
  unfold requireMutationRole requireMembership
  rw [bind_eq, bind_eq, Proc.bind_assoc, Proc.bind_assoc]
  show (serially calm).wp
    (Proc.bind (core (Core.run (.getMembershipItem userId orgId))) _) w Q
  rw [core_run]
  refine serially_run fun x w' hw hx => ?_
  have hreply : (Call.core (.getMembershipItem userId orgId)).answer x w' = (.ok (some m), w') := by
    show (((Core.Call.getMembershipItem userId orgId).answer x.toChoice w'.core).1, _) = _
    have hx' : x.fate = .ok := hx
    rw [Core.Call.answer, hx', hw.2, hm]
    rfl
  rw [hreply]
  show (serially calm).wp (Proc.bind (if m.role ∈ mutationRoles then pure m else _) f) w' Q
  rw [if_pos hrole]
  exact hf m w' hw

/-- Loading an invoice that is there. -/
theorem calm_load {f : Invoice → Prog β} {i : Invoice} (h : Loaded w.db orgId invoiceId i)
    (hf : ∀ w', (serially calm).rely w w' → (serially calm).wp (f i) w' Q) :
    (serially calm).wp ((loadInvoice orgId invoiceId).bind f) w Q := by
  unfold loadInvoice
  rw [bind_eq, Proc.bind_assoc]
  refine serially_run fun x w' hw hx => ?_
  have hreply : (Call.selectInvoice orgId invoiceId).answer x w' = (.ok (some i), w') := by
    have hrows : w'.db.invoices.rows.filter (fun i =>
        i.orgId == orgId && i.id == invoiceId && !i.isDeleted) = [i] := by
      rw [hw.1]
      refine Table.filter_eq_singleton_of_clash _ h.mem (by simp [h.orgId, h.id, h.isDeleted])
        fun j hj => ?_
      simp only [Bool.and_eq_true, beq_iff_eq] at hj
      simp [invoiceSchema, hj.1.2, h.id]
    have hx' : x.fate = .ok := hx
    rw [Call.answer, hrows, hx']
    rfl
  rw [hreply]
  exact hf w' hw

theorem calm_findReplayed {f : Option InvoicePayment → Prog β} {p : InvoicePayment}
    (h : Recorded w.db orgId (some key) p) (hkey : key ≠ "")
    (hf : ∀ w', (serially calm).rely w w' → (serially calm).wp (f (some p)) w' Q) :
    (serially calm).wp ((findReplayed orgId (some key)).bind f) w Q := by
  have htruthy : truthy (some key) = some key := Option.filter_eq_some_iff.mpr ⟨rfl, by simpa⟩
  unfold findReplayed
  rw [htruthy]
  refine serially_run fun x w' hw hx => ?_
  have hreply : (Call.selectPaymentByKey orgId key).answer x w' = (.ok (some p), w') := by
    have hrows : w'.db.payments.rows.filter (fun p =>
        p.orgId == orgId && p.idempotencyKey == some key) = [p] := by
      rw [hw.1]
      refine Table.filter_eq_singleton_of_clash _ h.mem (by simp [h.orgId, h.key]) fun q hq => ?_
      simp only [Bool.and_eq_true, beq_iff_eq] at hq
      simp [paymentSchema, hq.1, hq.2, h.orgId, h.key]
    have hx' : x.fate = .ok := hx
    rw [Call.answer, hrows, hx']
    rfl
  rw [hreply]
  exact hf w' hw

end Calm

theorem wp_replay {orgId invoiceId userId key : String} {body : RecordPaymentRequest}
    {p : InvoicePayment} {i : Invoice} {w : World} (hp : Recorded w.db orgId (some key) p)
    (hbody : body.idempotencyKey = some key) (hkey : key ≠ "")
    (hi : Loaded w.db orgId invoiceId i) (hstatus : i.status.isPayable)
    (hrole : CanMutate w.core userId orgId) :
    (serially calm).wp (recordPayment orgId invoiceId userId body) w fun r _ => r = .ok (i, p) := by
  refine calm_requireMutationRole hrole fun m w₁ h₁ => ?_
  rw [← h₁.1] at hi hp
  refine calm_load hi fun w₂ h₂ => ?_
  rw [← h₂.1] at hp
  rw [assertCanRecordPayment, if_neg (not_not.mpr hstatus), hbody]
  exact calm_findReplayed hp hkey fun w₃ h₃ => rfl

/-! ### Replaying a request that succeeded -/

/-- The replay of a request changes nothing, and returns the payment when no call fails and the
user still has the role. -/
structure Replayed (orgId invoiceId userId : String) (body : RecordPaymentRequest)
    (p : InvoicePayment) (db : Db) : Prop where
  unchanged : ∀ o core,
    (exec Call.answer (recordPayment orgId invoiceId userId body) o ⟨core, db⟩).2.db = db
  returned : ∀ o core, Healthy o → CanMutate core userId orgId →
    ∃ i w, exec Call.answer (recordPayment orgId invoiceId userId body) o ⟨core, db⟩ =
      (some (.ok (i, p)), w)

/-- A run without a failure ends with what holds of every such run. -/
theorem exec_of_calm {α : Type} {p : Prog α} {w : World} {Q : Except PyErr α → World → Prop}
    (h : (serially calm).wp p w Q) {o : Oracle Choice} (ho : Healthy o) :
    ∃ r w', exec Call.answer p o w = (some r, w') ∧ Q r w' := by
  have hsome : ∀ n, (o n).isSome := fun n => by
    obtain ⟨x, hx, _⟩ := ho n
    rw [hx]
    rfl
  obtain ⟨r, w', hr⟩ : ∃ r w', exec Call.answer p o w = (some r, w') :=
    exists_exec_eq_some p hsome w
  refine ⟨r, w', hr, exec_post (K := serially calm) h ?_ hr⟩
  refine along_of_forall _ (fun n x hx c v => ?_) w
  obtain ⟨y, hy, hfate⟩ := ho n
  rw [hx] at hy
  cases hy
  exact hfate

/-- What a request that succeeded leaves. -/
theorem succeeded_of_exec {orgId invoiceId userId : String} {body : RecordPaymentRequest}
    {o : Oracle Choice} {w w' : World} {i : Invoice} {p : InvoicePayment}
    (h : exec Call.answer (recordPayment orgId invoiceId userId body) o w =
      (some (.ok (i, p)), w')) : Succeeded w.db w'.db orgId invoiceId body p := by
  have hpost := exec_post (wp_recordPayment orgId invoiceId userId body w)
    (along_of_forall _ (fun _ _ _ _ _ => trivial) w) h
  exact hpost _ rfl

/-- A replay can be tried at any time. -/
theorem Replayed.succeeded {orgId invoiceId userId : String} {body : RecordPaymentRequest}
    {p : InvoicePayment} {db : Db} (h : Replayed orgId invoiceId userId body p db) :
    Succeeded db db orgId invoiceId body p := by
  obtain ⟨i, w, hexec⟩ := h.returned (fun n => some (.calm (toString n))) .initial
    (fun _ => ⟨_, rfl, rfl⟩) ⟨_, rfl, List.mem_cons_self⟩
  have hsucceeded := succeeded_of_exec hexec
  have hdb := h.unchanged (fun n => some (.calm (toString n))) .initial
  rw [hexec] at hdb
  rwa [hdb] at hsucceeded

/-- An empty key is not looked up. -/
theorem Replayed.key_ne_empty {orgId invoiceId userId : String} {body : RecordPaymentRequest}
    {p : InvoicePayment} {db : Db} (h : Replayed orgId invoiceId userId body p db) :
    body.idempotencyKey ≠ some "" := by
  intro hkey
  have hgrew := h.succeeded.grew (by rw [hkey]; rfl)
  omega

theorem recorded_runAll {db : Db} {orgId : String} {key : Option String} {p : InvoicePayment}
    (h : Recorded db orgId key p) (rs : List Request) : Recorded (runAll db rs) orgId key p :=
  runAll_induction (fun _ _ _ h ht => Recorded.transition h ht) h rs

theorem issued_runAll {db : Db} {orgId invoiceId : String} (h : Issued db orgId invoiceId)
    (rs : List Request) : Issued (runAll db rs) orgId invoiceId :=
  runAll_induction (fun _ _ _ h ht => Issued.transition h ht) h rs

/-- **When a payment can be replayed.** A request with a key succeeded, and any others followed.
Its replay changes nothing and returns the payment exactly when the key is not empty and the invoice
has been neither deleted nor voided since. -/
theorem replayed_iff {db : Db} {orgId invoiceId userId key : String} {body : RecordPaymentRequest}
    {o : Oracle Choice} {core : Core.World} {i : Invoice} {p : InvoicePayment} {w : World}
    (hbody : body.idempotencyKey = some key)
    (hfirst : exec Call.answer (recordPayment orgId invoiceId userId body) o ⟨core, db⟩ =
      (some (.ok (i, p)), w)) (rs : List Request) :
    Replayed orgId invoiceId userId body p (runAll w.db rs) ↔
      key ≠ "" ∧ ∃ row ∈ (runAll w.db rs).invoices.rows, row.orgId = orgId ∧ row.id = invoiceId ∧
        row.isDeleted = false ∧ row.status ≠ .void := by
  have hsucceeded := succeeded_of_exec hfirst
  have hrecorded := recorded_runAll hsucceeded.recorded rs
  obtain ⟨j, hj, hjorg, hjid, hjdraft⟩ := issued_runAll hsucceeded.issued rs
  generalize runAll w.db rs = db' at hrecorded hj
  constructor
  · intro h
    obtain ⟨row, hrow, hstatus⟩ := h.succeeded.payable
    refine ⟨fun hkey => h.key_ne_empty (by rw [hbody, hkey]), row, hrow.mem, hrow.orgId, hrow.id,
      hrow.isDeleted, fun hvoid => ?_⟩
    rw [hvoid] at hstatus
    exact Bool.false_ne_true hstatus
  · rintro ⟨hkey, row, hrow, horg, hid, hdeleted, hvoid⟩
    have hstatus : row.status.isPayable := by
      have hjrow : j = row := invoice_eq_of_id db' hj hrow (hjid.trans hid.symm)
      rw [hjrow] at hjdraft
      cases hs : row.status with
      | draft => exact absurd hs hjdraft
      | void => exact absurd hs hvoid
      | sent | partiallyPaid | paid => rfl
    have hkeySome : body.idempotencyKey.isSome := by rw [hbody]; rfl
    refine ⟨fun o core => db_exec_of_recorded hrecorded hkeySome o core, fun o core ho hrole => ?_⟩
    rw [hbody] at hrecorded
    obtain ⟨r, w', hexec, hr⟩ := exec_of_calm (w := ⟨core, db'⟩)
      (wp_replay hrecorded hbody hkey ⟨hrow, horg, hid, hdeleted⟩ hstatus hrole) ho
    rw [hr] at hexec
    exact ⟨row, w', hexec⟩

/-- A payment of 40 cents under a key. -/
def payForty (key : String) : RecordPaymentRequest := payment 40 (some key) forty_pos

/-- Its first execution. -/
def firstPay (key : String) : Option (Except PyErr (Invoice × InvoicePayment)) × World :=
  exec Call.answer (recordPayment "org" "c4" "ada" (payForty key))
    (fun n => some (.calm ("p" ++ toString n))) ⟨.initial, sentDb⟩

/-- The payment it records. -/
def fortyCents (id key : String) : InvoicePayment :=
  { newPayment id "org" "c4" "ada" (payForty key) with
    recordedAt := ⟨⟨2026, 1, 1⟩, 0, 0, 0, 0⟩ }

/-- The invoice after it. -/
def fortyPaid : Invoice :=
  { paidInvoice with
    status := .partiallyPaid, amountPaidCents := 40, paymentStatus := .partiallyPaid }

set_option maxRecDepth 20000 in
theorem firstPay_key : (firstPay "key").1 = some (.ok (fortyPaid, fortyCents "p3" "key")) := rfl

set_option maxRecDepth 20000 in
theorem firstPay_empty : (firstPay "").1 = some (.ok (fortyPaid, fortyCents "p2" "")) := rfl

set_option maxRecDepth 20000 in
theorem fortyPaid_mem : fortyPaid ∈ (firstPay "key").2.db.invoices.rows := by decide

/-- The key is not empty, and nothing happened to the invoice. -/
theorem replayed_firstPay :
    Replayed "org" "c4" "ada" (payForty "key") (fortyCents "p3" "key")
      (runAll (firstPay "key").2.db []) :=
  (replayed_iff rfl (Prod.ext firstPay_key rfl) []).mpr
    ⟨by decide, fortyPaid, fortyPaid_mem, rfl, rfl, rfl, by decide⟩

/-- The replay of a request with an empty key fails. -/
theorem not_replayed_of_empty :
    ¬∀ (db : Db) (_ : Reachable db) (orgId invoiceId userId : String) (body : RecordPaymentRequest)
      (o : Oracle Choice) (core : Core.World) (i : Invoice) (p : InvoicePayment) (w : World),
      body.idempotencyKey.isSome →
      exec Call.answer (recordPayment orgId invoiceId userId body) o ⟨core, db⟩ =
        (some (.ok (i, p)), w) →
      ∀ rs, Replayed orgId invoiceId userId body p (runAll w.db rs) := by
  intro h
  have hreplayed := h sentDb ⟨_, rfl⟩ "org" "c4" "ada" (payForty "") _ _ fortyPaid
    (fortyCents "p2" "") (firstPay "").2 rfl (Prod.ext firstPay_empty rfl) []
  exact hreplayed.key_ne_empty rfl

end A2ZCore.Invoicing
