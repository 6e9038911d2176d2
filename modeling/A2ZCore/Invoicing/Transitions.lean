import A2ZCore.Invoicing.Effects
import Mathlib

/-!
# Operations as atomic transitions

Run alone, a mutation of the service reads, computes, and commits once; wherever it fails or is
stopped, the database is as it was or as that one commit left it. `Transition op db db'` says what
that commit is, operation by operation: from which row it starts, what the new row is, and which
line items and payments go with it. Every property of sequential runs is derived from it, and
`exec_op` is the theorem that the programs refine it.

## Main definitions

* `Op`, `Op.prog` — the six mutations
* `Transition` — what the commit of an operation does

## Main results

* `exec_op` — an operation run alone leaves the database as it was, or after its transition
-/

namespace A2ZCore.Invoicing

open Interaction Interaction.Proc Interaction.Contract

/-- A mutation, with the values its request carries. -/
inductive Op where
  | create (orgId userId : String) (body : InvoiceCreateRequest)
  | update (orgId invoiceId userId : String) (body : InvoiceUpdateRequest)
  | softDelete (orgId invoiceId userId : String)
  | send (orgId invoiceId userId recipientEmail : String)
  | pay (orgId invoiceId userId : String) (body : RecordPaymentRequest)
  | void (orgId invoiceId userId reason : String)

/-- The program of a mutation, without its result. -/
def Op.prog : Op → Prog Unit
  | create orgId userId body => (createInvoice orgId userId body).bind fun _ => .ret ()
  | update orgId invoiceId userId body =>
    (updateInvoice orgId invoiceId userId body).bind fun _ => .ret ()
  | softDelete orgId invoiceId userId => softDeleteInvoice orgId invoiceId userId
  | send orgId invoiceId userId recipientEmail =>
    (sendInvoice orgId invoiceId userId recipientEmail).bind fun _ => .ret ()
  | pay orgId invoiceId userId body =>
    (recordPayment orgId invoiceId userId body).bind fun _ => .ret ()
  | void orgId invoiceId userId reason =>
    (voidInvoice orgId invoiceId userId reason).bind fun _ => .ret ()

/-! ### Transitions -/

/-- The row an operation on an existing invoice starts from. -/
structure Loaded (db : Db) (orgId invoiceId : String) (loaded : Invoice) : Prop where
  mem : loaded ∈ db.invoices.rows
  orgId : loaded.orgId = orgId
  id : loaded.id = invoiceId
  isDeleted : loaded.isDeleted = false

/-- The line items `_load_line_items` selects. -/
def Db.selectItems (db : Db) (orgId invoiceId : String) : List InvoiceLineItem :=
  db.lineItems.rows.filter fun i => i.orgId == orgId && i.invoiceId == invoiceId

/-- The items are the ones a body describes, attached to an invoice. -/
structure Built (orgId invoiceId : String) (body : List LineItemCreate)
    (items : List InvoiceLineItem) : Prop where
  amounts : ∃ built, buildLineItems orgId body = .ok built ∧
    items.map (·.amountCents) = built.map (·.amountCents)
  orgId : ∀ i ∈ items, i.orgId = orgId
  invoiceId : ∀ i ∈ items, i.invoiceId = invoiceId

/-- The line items an update computes the totals from, and the writes that go with them. -/
def EditsItems (db : Db) (orgId invoiceId : String) (body : InvoiceUpdateRequest)
    (items : List InvoiceLineItem) (writes : List Write) : Prop :=
  match body.lineItems with
  | none => items.Perm (db.selectItems orgId invoiceId) ∧ writes = []
  | some new => ∃ old : List InvoiceLineItem, old.Perm (db.selectItems orgId invoiceId) ∧
      Built orgId invoiceId new items ∧
      writes = old.map (fun item => .deleteLineItem item.id) ++ items.map .insertLineItem

/-- What the commit of an operation does to the database. -/
inductive Transition (db : Db) : Op → Db → Prop where
  | create {orgId userId : String} {body : InvoiceCreateRequest} {invoice : Invoice}
      {items : List InvoiceLineItem} {now : DateTime} {db' : Db}
      (hbuilt : Built orgId invoice.id body.lineItems items)
      (htotals : computeTotals (items.map (·.amountCents)) body.taxCents body.discountCents =
        .ok (invoice.subtotalCents, invoice.totalCents))
      (horg : invoice.orgId = orgId) (htax : invoice.taxCents = body.taxCents)
      (hdiscount : invoice.discountCents = body.discountCents)
      (hstatus : invoice.status = .draft) (hpaid : invoice.amountPaidCents = 0)
      (hpayment : invoice.paymentStatus = .unpaid) (hdeleted : invoice.isDeleted = false)
      (happly : db.apply now (.insertInvoice invoice :: items.map .insertLineItem) = .ok db') :
      Transition db (.create orgId userId body) db'
  | update {orgId invoiceId userId : String} {body : InvoiceUpdateRequest}
      {loaded current : Invoice} {items : List InvoiceLineItem} {writes : List Write}
      {now : DateTime} {db' : Db} (hloaded : Loaded db orgId invoiceId loaded)
      (hstatus : loaded.status ≠ .void) (hitems : EditsItems db orgId invoiceId body items writes)
      (hcurrent : recompute body (withFields body loaded) items = .ok current)
      (happly : db.apply now (.updateInvoice loaded current :: writes) = .ok db') :
      Transition db (.update orgId invoiceId userId body) db'
  | softDelete {orgId invoiceId userId : String} {loaded : Invoice} {now : DateTime} {db' : Db}
      (hloaded : Loaded db orgId invoiceId loaded)
      (happly : db.apply now [.updateInvoice loaded { loaded with isDeleted := true }] = .ok db') :
      Transition db (.softDelete orgId invoiceId userId) db'
  | send {orgId invoiceId userId recipientEmail key : String} {loaded : Invoice} {now : DateTime}
      {db' : Db} (hloaded : Loaded db orgId invoiceId loaded) (hstatus : loaded.status = .draft)
      (happly : db.apply now
        [.updateInvoice loaded { loaded with status := .sent, pdfS3Key := some key }] = .ok db') :
      Transition db (.send orgId invoiceId userId recipientEmail) db'
  | pay {orgId invoiceId userId id : String} {body : RecordPaymentRequest} {loaded : Invoice}
      {now : DateTime} {db' : Db} (hloaded : Loaded db orgId invoiceId loaded)
      (hstatus : loaded.status.isPayable)
      (happly : db.apply now [.updateInvoice loaded (withPayment loaded body.amountCents),
        .insertPayment (newPayment id orgId invoiceId userId body)] = .ok db') :
      Transition db (.pay orgId invoiceId userId body) db'
  | void {orgId invoiceId userId reason : String} {loaded : Invoice} {now : DateTime} {db' : Db}
      (hloaded : Loaded db orgId invoiceId loaded) (hstatus : loaded.status ≠ .void)
      (happly : db.apply now [.updateInvoice loaded { loaded with status := .void }] = .ok db') :
      Transition db (.void orgId invoiceId userId reason) db'

/-- The writes that go with an update's line items touch nothing else. -/
theorem apply_of_editsItems {db db₁ db' : Db} {orgId invoiceId : String}
    {body : InvoiceUpdateRequest} {items : List InvoiceLineItem} {writes : List Write}
    {now : DateTime} (h : EditsItems db orgId invoiceId body items writes)
    (happly : db₁.apply now writes = .ok db') :
    db'.invoices = db₁.invoices ∧ db'.payments = db₁.payments := by
  unfold EditsItems at h
  cases hbody : body.lineItems with
  | none =>
    rw [hbody] at h
    obtain ⟨_, rfl⟩ := h
    cases happly
    exact ⟨rfl, rfl⟩
  | some new =>
    rw [hbody] at h
    obtain ⟨old, _, _, rfl⟩ := h
    obtain ⟨db₂, h₂, h₃⟩ := Db.apply_append.mp happly
    obtain ⟨_, hinvoices₂, hpayments₂⟩ := apply_deleteLineItems h₂
    obtain ⟨_, hinvoices₃, hpayments₃⟩ := apply_insertLineItems h₃
    exact ⟨hinvoices₃.trans hinvoices₂, hpayments₃.trans hpayments₂⟩

/-! ### What the reads reply -/

theorem loaded_of_answer {orgId invoiceId : String} {x : Choice} {w : World} {r : Option Invoice}
    (h : ((Call.selectInvoice orgId invoiceId).answer x w).1 = .ok r) {loaded : Invoice}
    (hr : r = some loaded) : Loaded w.db orgId invoiceId loaded := by
  subst hr
  have hmem := mem_of_scalarOneOrNone (reply_of_read h)
  simp only [List.mem_filter, Bool.and_eq_true, beq_iff_eq, Bool.not_eq_true'] at hmem
  obtain ⟨hmem, ⟨horg, hid⟩, hdeleted⟩ := hmem
  exact ⟨hmem, horg, hid, hdeleted⟩

theorem perm_of_answer {orgId invoiceId : String} {x : Choice} {w : World}
    {r : List InvoiceLineItem}
    (h : ((Call.selectLineItems orgId invoiceId).answer x w).1 = .ok r) :
    r.Perm (w.db.selectItems orgId invoiceId) := by
  have hreply := reply_of_read h
  cases hreply
  exact List.perm_insertionSort _ _

/-! ### The refinement, call by call -/

theorem sameDb_refl (w : World) : w.db = w.db := rfl

theorem sameDb_trans {u v w : World} (h : v.db = u.db) (h' : w.db = v.db) : w.db = u.db := h'.trans h

/-- What an operation that began in `db₀` may do: nothing, or its one transition. The other
programs leave the database alone; the remote services may change under it at will. -/
def atomically (op : Op) (db₀ : Db) : Contract Call Call.Resp PyErr Choice World where
  answer := Call.answer
  rely w w' := w'.db = w.db
  admits _ _ _ := True
  guar _ _ w w' := w'.db = w.db ∨ (w.db = db₀ ∧ Transition db₀ op w'.db)
  rely_refl := sameDb_refl
  rely_trans := sameDb_trans

/-- From `w`, the rest of an operation commits nothing but its transition. -/
def Refines {α : Type} (op : Op) (db₀ : Db) (p : Prog α) (w : World) : Prop :=
  (atomically op db₀).wp p w fun _ _ => True

section Rules

variable {op : Op} {db₀ : Db} {α β : Type} {w : World}

/-- A part of the program that commits nothing, and what it can return. -/
theorem refines_bind_returns {p : Prog α} {V : α → Prop} {f : α → Prog β}
    (hp : p.Calls Call.Quiet) (hv : p.Returns V)
    (hf : ∀ a w', w'.db = w.db → V a → Refines op db₀ (f a) w') :
    Refines op db₀ (p.bind f) w := by
  refine wp_bind (wp_of_calls (fun c hc x w' _ => ?_) hp hv hf fun _ _ _ => trivial)
  exact ⟨Or.inl (db_answer_of_quiet hc x w'), db_answer_of_quiet hc x w'⟩

/-- A part of the program that commits nothing. -/
theorem refines_bind {p : Prog α} {f : α → Prog β} (hp : p.Calls Call.Quiet)
    (hf : ∀ a w', w'.db = w.db → Refines op db₀ (f a) w') : Refines op db₀ (p.bind f) w :=
  refines_bind_returns hp p.returns_true fun a w' hw _ => hf a w' hw

theorem refines_quiet {p : Prog α} (hp : p.Calls Call.Quiet) : Refines op db₀ p w := by
  refine wp_of_calls (fun c hc x w' _ => ?_) hp p.returns_true (fun _ _ _ _ => trivial)
    fun _ _ _ => trivial
  exact ⟨Or.inl (db_answer_of_quiet hc x w'), db_answer_of_quiet hc x w'⟩

/-- A pure check. -/
theorem refines_ofExcept {x : Except PyErr α} {f : α → Prog β}
    (hf : ∀ a, x = .ok a → Refines op db₀ (f a) w) :
    Refines op db₀ ((Proc.ofExcept x).bind f) w := by
  cases x with
  | ok a => exact hf a rfl
  | error e => trivial

/-- A read that replies with what `spec` says of the state it runs in. -/
theorem refines_read {c : Call} {f : c.Resp → Prog β} (spec : Db → c.Resp → Prop) (hc : c.Quiet)
    (hspec : ∀ x w a, (c.answer x w).1 = .ok a → spec w.db a)
    (hf : ∀ a w', w'.db = w.db → spec w.db a → Refines op db₀ (f a) w') :
    Refines op db₀ ((run c).bind f) w := by
  refine wp_bind (wp_perform fun w' hw x _ => ⟨Or.inl (db_answer_of_quiet hc x w'), ?_⟩)
  have hdb : (c.answer x w').2.db = w.db := (db_answer_of_quiet hc x w').trans hw
  change (atomically op db₀).next f (fun _ _ => True) (c.answer x w').1 (c.answer x w').2
  cases hr : (c.answer x w').1 with
  | ok a => exact hf a _ hdb (hw ▸ hspec x w' a hr)
  | error e => trivial

/-- The commit, after which nothing is committed any more. -/
theorem refines_commit {writes : List Write} {f : Unit → Prog β} (hw : w.db = db₀)
    (htransition : ∀ now db', db₀.apply now writes = .ok db' → Transition db₀ op db')
    (hf : ∀ a, (f a).Calls Call.Quiet) : Refines op db₀ ((run (.commit writes)).bind f) w := by
  refine wp_bind (wp_perform fun w' hw' x _ => ?_)
  have hdb : w'.db = db₀ := (show w'.db = w.db from hw').trans hw
  have hnext : ∀ (r : Except PyErr Unit) (w'' : World),
      (atomically op db₀).next f (fun _ _ => True) r w'' := by
    intro r w''
    cases r with
    | ok a => exact refines_quiet (hf a)
    | error e => trivial
  change (_ ∨ _) ∧ _
  rcases answer_commit_cases writes x w' with ⟨e, he⟩ | ⟨db', hdb', he⟩
  · exact ⟨.inl (by change ((Call.commit writes).answer x w').2.db = w'.db; rw [he]), hnext _ _⟩
  · have heffect : ((Call.commit writes).answer x w').2.db = db' := by
      rcases he with he | ⟨e, he⟩ <;> rw [he]
    refine ⟨.inr ⟨hdb, ?_⟩, hnext _ _⟩
    change Transition db₀ op ((Call.commit writes).answer x w').2.db
    rw [heffect]
    exact htransition x.now db' (hdb ▸ hdb')

/-! ### The service's own steps -/

theorem calls_quiet_requireMutationRole (userId orgId : String) :
    (requireMutationRole userId orgId).Calls Call.Quiet :=
  calls_requireMutationRole trivial

theorem calls_quiet_findReplayed (orgId : String) (idempotencyKey : Option String) :
    (findReplayed orgId idempotencyKey).Calls Call.Quiet := by
  unfold findReplayed
  split
  · trivial
  · exact Calls.perform trivial

theorem refines_load {orgId invoiceId : String} {f : Invoice → Prog β}
    (hf : ∀ loaded w', w'.db = w.db → Loaded w.db orgId invoiceId loaded →
      Refines op db₀ (f loaded) w') :
    Refines op db₀ ((loadInvoice orgId invoiceId).bind f) w := by
  unfold loadInvoice
  rw [bind_eq, Proc.bind_assoc]
  refine refines_read (fun db r => ∀ i, r = some i → Loaded db orgId invoiceId i) trivial
    (fun x w r hr i hi => loaded_of_answer hr hi) fun r w' hw hr => ?_
  cases r with
  | none => trivial
  | some loaded => exact hf loaded w' hw (hr loaded rfl)

theorem refines_loadItems {orgId invoiceId : String} {f : List InvoiceLineItem → Prog β}
    (hf : ∀ items w', w'.db = w.db → items.Perm (w.db.selectItems orgId invoiceId) →
      Refines op db₀ (f items) w') :
    Refines op db₀ ((loadLineItems orgId invoiceId).bind f) w :=
  refines_read (fun db items => items.Perm (db.selectItems orgId invoiceId)) trivial
    (fun _ _ _ h => perm_of_answer h) hf

/-- The items with their invoice and their identifiers set. -/
def Added (invoiceId : String) (built items : List InvoiceLineItem) : Prop :=
  List.Forall₂ (fun b i => i = { b with id := i.id, invoiceId := invoiceId }) built items

theorem returns_addLineItems (invoiceId : String) (built : List InvoiceLineItem) :
    (addLineItems invoiceId built).Returns (Added invoiceId built) := by
  induction built with
  | nil => exact List.Forall₂.nil
  | cons b built ih =>
    refine (Proc.returns_true _).bind fun id _ => ih.bind fun rest hrest => ?_
    exact List.Forall₂.cons rfl hrest

theorem calls_quiet_addLineItems (invoiceId : String) (built : List InvoiceLineItem) :
    (addLineItems invoiceId built).Calls Call.Quiet := by
  induction built with
  | nil => trivial
  | cons b built ih => exact (calls_quiet_core _).bind fun _ => ih.bind fun _ => trivial

end Rules

/-! ### Line items of a body -/

theorem orgId_of_buildLineItems {orgId : String} {body : List LineItemCreate}
    {built : List InvoiceLineItem} (h : buildLineItems orgId body = .ok built) :
    ∀ b ∈ built, b.orgId = orgId := by
  induction body generalizing built with
  | nil => cases h; simp
  | cons item items ih =>
    unfold buildLineItems at h
    cases hamount : computeLineAmountCents item.quantity item.unitPriceCents with
    | error e => rw [hamount] at h; cases h
    | ok amountCents =>
      cases hrest : buildLineItems orgId items with
      | error e => rw [hamount, hrest] at h; cases h
      | ok rest =>
        rw [hamount, hrest] at h
        cases h
        exact List.forall_mem_cons.mpr ⟨rfl, ih hrest⟩

theorem Added.amounts {invoiceId : String} {built items : List InvoiceLineItem}
    (h : Added invoiceId built items) :
    items.map (·.amountCents) = built.map (·.amountCents) := by
  induction h with
  | nil => rfl
  | cons hitem _ ih => rw [List.map_cons, List.map_cons, ih, hitem]

theorem Added.of_mem {invoiceId : String} {built items : List InvoiceLineItem}
    (h : Added invoiceId built items) {i : InvoiceLineItem} (hi : i ∈ items) :
    i.invoiceId = invoiceId ∧ ∃ b ∈ built, i.orgId = b.orgId := by
  obtain ⟨b, hb, hitem⟩ : ∃ b ∈ built, i = { b with id := i.id, invoiceId := invoiceId } := by
    obtain ⟨n, hn, rfl⟩ := List.mem_iff_getElem.mp hi
    have hlen : n < built.length := h.length_eq ▸ hn
    exact ⟨built[n], List.getElem_mem _, List.Forall₂.get h hlen hn⟩
  rw [hitem]
  exact ⟨rfl, b, hb, rfl⟩

/-- The items a body describes, attached to an invoice. -/
theorem built_of_added {orgId invoiceId : String} {body : List LineItemCreate}
    {built items : List InvoiceLineItem} (hbuilt : buildLineItems orgId body = .ok built)
    (hadded : Added invoiceId built items) : Built orgId invoiceId body items where
  amounts := ⟨built, hbuilt, hadded.amounts⟩
  orgId i hi := by
    obtain ⟨_, b, hb, horg⟩ := hadded.of_mem hi
    exact horg.trans (orgId_of_buildLineItems hbuilt b hb)
  invoiceId i hi := (hadded.of_mem hi).1

/-! ### The refinement, operation by operation -/

section Operations

variable {w : World}

/-- Dropping the result. -/
theorem refines_void_result {op : Op} {db₀ : Db} {α : Type} {p : Prog α}
    (hp : Refines op db₀ p w) : Refines op db₀ (p.bind fun _ => .ret ()) w := by
  refine wp_bind (wp_mono (fun r w' _ => ?_) hp)
  cases r <;> trivial

theorem refines_softDelete (orgId invoiceId userId : String) :
    Refines (.softDelete orgId invoiceId userId) w.db
      (softDeleteInvoice orgId invoiceId userId) w := by
  refine refines_bind (calls_quiet_requireMutationRole _ _) fun _ w₁ h₁ => ?_
  refine refines_load fun loaded w₂ h₂ hloaded => ?_
  rw [h₁] at hloaded
  refine refines_commit (h₂.trans h₁) (fun now db' h => .softDelete hloaded h) fun _ => ?_
  exact (calls_quiet_core _).bind fun _ => trivial

theorem refines_void (orgId invoiceId userId reason : String) :
    Refines (.void orgId invoiceId userId reason) w.db
      ((voidInvoice orgId invoiceId userId reason).bind fun _ => .ret ()) w := by
  refine refines_void_result ?_
  refine refines_bind (calls_quiet_requireMutationRole _ _) fun _ w₁ h₁ => ?_
  refine refines_load fun loaded w₂ h₂ hloaded => ?_
  rw [h₁] at hloaded
  refine refines_ofExcept fun _ hvoid => ?_
  have hstatus : loaded.status ≠ .void := by
    intro hs
    rw [assertCanVoid, if_pos hs] at hvoid
    cases hvoid
  refine refines_commit (h₂.trans h₁) (fun now db' h => .void hloaded hstatus h) fun _ => ?_
  exact (Calls.perform trivial).bind fun _ => (calls_quiet_core _).bind fun _ => trivial

theorem refines_pay (orgId invoiceId userId : String) (body : RecordPaymentRequest) :
    Refines (.pay orgId invoiceId userId body) w.db
      ((recordPayment orgId invoiceId userId body).bind fun _ => .ret ()) w := by
  refine refines_void_result ?_
  refine refines_bind (calls_quiet_requireMutationRole _ _) fun _ w₁ h₁ => ?_
  refine refines_load fun loaded w₂ h₂ hloaded => ?_
  rw [h₁] at hloaded
  refine refines_ofExcept fun _ hcan => ?_
  have hstatus : loaded.status.isPayable := by
    by_contra hs
    rw [assertCanRecordPayment, if_pos hs] at hcan
    cases hcan
  refine refines_bind (calls_quiet_findReplayed _ _) fun replayed w₃ h₃ => ?_
  cases replayed with
  | some existing => exact refines_quiet trivial
  | none =>
    refine refines_bind (calls_quiet_core _) fun id w₄ h₄ => ?_
    refine refines_commit (h₄.trans (h₃.trans (h₂.trans h₁)))
      (fun now db' h => .pay hloaded hstatus h) fun _ => ?_
    exact (Calls.perform trivial).bind fun _ => (Calls.perform trivial).bind fun _ =>
      (calls_quiet_core _).bind fun _ => trivial

theorem refines_send (orgId invoiceId userId recipientEmail : String) :
    Refines (.send orgId invoiceId userId recipientEmail) w.db
      ((sendInvoice orgId invoiceId userId recipientEmail).bind fun _ => .ret ()) w := by
  refine refines_void_result ?_
  refine refines_bind (calls_quiet_requireMutationRole _ _) fun _ w₁ h₁ => ?_
  refine refines_load fun loaded w₂ h₂ hloaded => ?_
  rw [h₁] at hloaded
  refine refines_ofExcept fun _ hcan => ?_
  have hstatus : loaded.status = .draft := by
    by_contra hs
    rw [assertCanSend, if_pos hs] at hcan
    cases hcan
  refine refines_loadItems fun items w₃ h₃ _ => ?_
  refine refines_bind (calls_quiet_core _) fun orgSettings w₄ h₄ => ?_
  refine refines_bind (Calls.perform trivial) fun pdfBytes w₅ h₅ => ?_
  refine refines_bind (calls_quiet_core _) fun stored w₆ h₆ => ?_
  refine refines_bind (calls_quiet_core _) fun emailResult w₇ h₇ => ?_
  have hdb : w₇.db = w.db := by rw [h₇, h₆, h₅, h₄, h₃, h₂, h₁]
  refine refines_commit hdb (fun now db' h => .send hloaded hstatus h) fun _ => ?_
  exact (Calls.perform trivial).bind fun _ => (calls_quiet_core _).bind fun _ => trivial

theorem refines_create (orgId userId : String) (body : InvoiceCreateRequest) :
    Refines (.create orgId userId body) w.db
      ((createInvoice orgId userId body).bind fun _ => .ret ()) w := by
  refine refines_void_result ?_
  refine refines_bind (calls_quiet_requireMutationRole _ _) fun _ w₁ h₁ => ?_
  refine refines_bind (calls_quiet_core _) fun orgSettings w₂ h₂ => ?_
  refine refines_bind (calls_quiet_core _) fun rawNumber w₃ h₃ => ?_
  refine refines_bind (Calls.perform trivial) fun today w₄ h₄ => ?_
  refine refines_ofExcept fun number _ => ?_
  refine refines_ofExcept fun built hbuilt => ?_
  refine refines_ofExcept fun totals htotals => ?_
  refine refines_bind (calls_quiet_core _) fun id w₅ h₅ => ?_
  refine refines_bind (Calls.perform trivial) fun _ w₆ h₆ => ?_
  refine refines_bind_returns (calls_quiet_addLineItems _ _) (returns_addLineItems _ _)
    fun items w₇ h₇ hadded => ?_
  have hdb : w₇.db = w.db := by rw [h₇, h₆, h₅, h₄, h₃, h₂, h₁]
  refine refines_commit hdb (fun now db' h => ?_) fun _ => ?_
  · refine .create (built_of_added hbuilt hadded) ?_ rfl rfl rfl rfl rfl rfl rfl h
    rw [hadded.amounts]
    exact htotals
  · exact (Calls.perform trivial).bind fun _ => (calls_quiet_core _).bind fun _ => trivial

theorem calls_quiet_auditChanges (orgId userId invoiceId : String)
    (body : InvoiceUpdateRequest) :
    (auditChanges orgId userId invoiceId body).Calls Call.Quiet := by
  unfold auditChanges
  split
  · exact (calls_quiet_core _).bind fun _ => trivial
  · trivial

theorem calls_quiet_editLineItems (orgId invoiceId : String) (update : Write)
    (body : InvoiceUpdateRequest) (old : List InvoiceLineItem) :
    (editLineItems orgId invoiceId update body old).Calls Call.Quiet := by
  unfold editLineItems
  split
  · trivial
  · exact (Calls.perform trivial).bind fun _ => (Calls.ofExcept _).bind fun _ =>
      (calls_quiet_addLineItems _ _).bind fun _ => (Calls.perform trivial).bind fun _ => trivial

theorem returns_editLineItems {db : Db} {orgId invoiceId : String} {update : Write}
    {body : InvoiceUpdateRequest} {old : List InvoiceLineItem}
    (hold : old.Perm (db.selectItems orgId invoiceId)) :
    (editLineItems orgId invoiceId update body old).Returns fun r =>
      EditsItems db orgId invoiceId body r.1 r.2 := by
  unfold editLineItems EditsItems
  cases body.lineItems with
  | none => exact ⟨hold, rfl⟩
  | some new =>
    refine (Proc.returns_true _).bind fun _ _ => ?_
    refine (Returns.ofExcept fun built hbuilt => hbuilt).bind fun built hbuilt => ?_
    refine (returns_addLineItems _ _).bind fun items hadded => ?_
    refine (Proc.returns_true _).bind fun _ _ => ?_
    exact ⟨old, hold, built_of_added hbuilt hadded, rfl⟩

theorem refines_update (orgId invoiceId userId : String) (body : InvoiceUpdateRequest) :
    Refines (.update orgId invoiceId userId body) w.db
      ((updateInvoice orgId invoiceId userId body).bind fun _ => .ret ()) w := by
  refine refines_void_result ?_
  refine refines_bind (calls_quiet_requireMutationRole _ _) fun _ w₁ h₁ => ?_
  refine refines_load fun loaded w₂ h₂ hloaded => ?_
  rw [h₁] at hloaded
  refine refines_ofExcept fun _ hcan => ?_
  have hstatus : loaded.status ≠ .void := by
    intro hs
    rw [assertCanEdit, if_pos hs] at hcan
    cases hcan
  refine refines_bind (Calls.perform trivial) fun _ w₃ h₃ => ?_
  refine refines_loadItems fun old w₄ h₄ hold => ?_
  have h₃' : w₃.db = w.db := by rw [h₃, h₂, h₁]
  refine refines_bind_returns (calls_quiet_editLineItems _ _ _ _ _)
    (returns_editLineItems (h₃' ▸ hold)) fun edited w₅ h₅ hitems => ?_
  refine refines_ofExcept fun current hcurrent => ?_
  have h₅' : w₅.db = w.db := by rw [h₅, h₄, h₃']
  refine refines_commit h₅' (fun now db' h => ?_) fun _ => ?_
  · exact .update hloaded hstatus hitems hcurrent h
  · exact (Calls.perform trivial).bind fun _ => (calls_quiet_auditChanges _ _ _ _).bind
      fun _ => trivial

end Operations

theorem refines_op (op : Op) (w : World) : Refines op w.db op.prog w := by
  cases op with
  | create orgId userId body => exact refines_create orgId userId body
  | update orgId invoiceId userId body => exact refines_update orgId invoiceId userId body
  | softDelete orgId invoiceId userId => exact refines_softDelete orgId invoiceId userId
  | send orgId invoiceId userId recipientEmail =>
    exact refines_send orgId invoiceId userId recipientEmail
  | pay orgId invoiceId userId body => exact refines_pay orgId invoiceId userId body
  | void orgId invoiceId userId reason => exact refines_void orgId invoiceId userId reason

/-- **Operations are atomic when run alone.** Whatever fails, and wherever the program is stopped,
the database is as it was or after the operation's transition. -/
theorem exec_op (op : Op) (o : Oracle Choice) (w : World) :
    (exec Call.answer op.prog o w).2.db = w.db ∨
      Transition w.db op (exec Call.answer op.prog o w).2.db := by
  refine exec_invariant (K := atomically op w.db)
    (J := fun w' => w'.db = w.db ∨ Transition w.db op w'.db) ?_ (refines_op op w)
    (along_of_forall _ (fun _ _ _ _ _ => trivial) _) (.inl rfl)
  intro c x w₁ w₂ hguar h₁
  rcases hguar with h | ⟨_, h⟩
  · rwa [h]
  · exact .inr h

/-! ### Sequential runs -/

/-- One request of a sequential run: the operation, what the environment decides while it runs, and
the remote services as it finds them. -/
structure Request where
  op : Op
  oracle : Oracle Choice
  core : Core.World

/-- The database after a request. -/
def Request.apply (db : Db) (r : Request) : Db :=
  (exec Call.answer r.op.prog r.oracle ⟨r.core, db⟩).2.db

/-- The database after a sequence of requests, one after the other. -/
def runAll (db : Db) (rs : List Request) : Db := rs.foldl Request.apply db

/-- The states that sequences of requests reach from no rows at all. -/
def Reachable (db : Db) : Prop := ∃ rs, db = runAll Db.empty rs

/-- A request whose calls all go through. Generated identifiers start with `token`. -/
def Request.calm (op : Op) (token : String) : Request where
  op := op
  oracle n := some (.calm (token ++ toString n))
  core := .initial

/-- What every transition keeps, a sequence of requests keeps. -/
theorem runAll_induction {P : Db → Prop}
    (hstep : ∀ op db db', P db → Transition db op db' → P db') {db : Db} (h : P db)
    (rs : List Request) : P (runAll db rs) := by
  induction rs using List.reverseRecOn with
  | nil => exact h
  | append_singleton rs r ih =>
    rw [runAll, List.foldl_append]
    rcases exec_op r.op r.oracle ⟨r.core, runAll db rs⟩ with h | h
    · change P (Request.apply (runAll db rs) r)
      rw [Request.apply, h]
      exact ih
    · exact hstep _ _ _ ih h

/-- What every transition keeps holds in every reachable state. -/
theorem Reachable.induction {P : Db → Prop} (hempty : P Db.empty)
    (hstep : ∀ op db db', P db → Transition db op db' → P db') {db : Db} (h : Reachable db) :
    P db := by
  obtain ⟨rs, rfl⟩ := h
  exact runAll_induction hstep hempty rs

end A2ZCore.Invoicing
