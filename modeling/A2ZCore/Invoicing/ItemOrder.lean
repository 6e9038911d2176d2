import A2ZCore.Invoicing.Commits
import A2ZCore.Invoicing.StoredItems
import A2ZCore.Invoicing.Reads

/-!
# The order of line items

Line items are selected by the time they were created at. That time is the default of its column, the
start of the transaction, and all items of an invoice are inserted in one transaction. So the order
they are selected in is the database's choice, on every occasion anew, and the order of the request is
kept nowhere. It is seen again in one case only: when there is nothing to tell the items apart by.

## Main definitions

* `Selected` — what the tables hold of an invoice's items, and that the invoice is there
* `SeenAs` — each way to read the items gives these descriptions in this order

## Main results

* `selected_runAll` — requests that do not replace the items leave them as they are
* `seenInOrder_iff` — when the items of a request are seen in its order ever after
-/

namespace A2ZCore.Invoicing

open Interaction Interaction.Proc

/-! ### The items of an invoice -/

/-- Each line item belongs to an invoice. -/
def ForeignKey (db : Db) : Prop :=
  ∀ item ∈ db.lineItems.rows, ∃ i ∈ db.invoices.rows, i.id = item.invoiceId

/-- The invoice is there, and its line items are `items`. -/
structure Selected (orgId invoiceId : String) (items : List InvoiceLineItem) (db : Db) : Prop where
  exists_invoice : ∃ i ∈ db.invoices.rows, i.orgId = orgId ∧ i.id = invoiceId
  selectItems : db.selectItems orgId invoiceId = items

/-- The request replaces the line items of the invoice. -/
def Replaces (orgId invoiceId : String) : Op → Prop
  | .update org invoice _ body => org = orgId ∧ invoice = invoiceId ∧ body.lineItems.isSome
  | _ => False

/-- The write leaves these items of an invoice alone. -/
def Write.Spares (invoiceId : String) (items : List InvoiceLineItem) : Write → Prop
  | .insertLineItem item => item.invoiceId ≠ invoiceId
  | .deleteLineItem id => ∀ item ∈ items, item.id ≠ id
  | _ => True

section Selected

variable {orgId invoiceId : String} {items : List InvoiceLineItem} {now : DateTime} {db db' : Db}

theorem Selected.write (h : Selected orgId invoiceId items db) {write : Write}
    (hwrite : write.Spares invoiceId items) (happly : write.apply now db = .ok db') :
    Selected orgId invoiceId items db' := by
  obtain ⟨⟨i, hi, horg, hid⟩, hitems⟩ := h
  cases write with
  | insertInvoice invoice =>
    obtain ⟨hrows, _, hlineItems, _⟩ := Write.apply_insertInvoice happly
    refine ⟨⟨i, by rw [hrows]; exact List.mem_append_left _ hi, horg, hid⟩, ?_⟩
    rw [Db.selectItems, hlineItems]
    exact hitems
  | updateInvoice loaded current =>
    obtain ⟨hrows, hlineItems, _⟩ := Write.apply_updateInvoice happly
    refine ⟨⟨_, by rw [hrows]; exact List.mem_map_of_mem hi, ?_, ?_⟩, ?_⟩
    · split <;> exact horg
    · split <;> exact hid
    · rw [Db.selectItems, hlineItems]
      exact hitems
  | insertPayment payment =>
    obtain ⟨_, hinvoices, hlineItems⟩ := Write.apply_insertPayment happly
    refine ⟨⟨i, hinvoices ▸ hi, horg, hid⟩, ?_⟩
    rw [Db.selectItems, hlineItems]
    exact hitems
  | insertLineItem item =>
    obtain ⟨t, ht, rfl⟩ := map_eq_ok happly
    refine ⟨⟨i, hi, horg, hid⟩, ?_⟩
    have hother : (item.stored now).invoiceId ≠ invoiceId := hwrite
    rw [Db.selectItems, Relational.Table.rows_insert ht, List.filter_append]
    simp only [List.filter_singleton, beq_eq_false_iff_ne.mpr hother, Bool.and_false, cond_false,
      List.append_nil]
    exact hitems
  | deleteLineItem id =>
    cases happly
    refine ⟨⟨i, hi, horg, hid⟩, ?_⟩
    rw [← hitems, Db.selectItems, Relational.Table.rows_delete, List.filter_filter, Db.selectItems]
    refine List.filter_congr fun item hitem => ?_
    by_cases hown : (item.orgId == orgId && item.invoiceId == invoiceId) = true
    · have hmem : item ∈ items := by
        rw [← hitems]
        exact List.mem_filter.mpr ⟨hitem, hown⟩
      have hne := hwrite item hmem
      simp [hown, hne]
    · simp [hown]

theorem Selected.apply (h : Selected orgId invoiceId items db) {writes : List Write}
    (hwrites : ∀ write ∈ writes, write.Spares invoiceId items)
    (happly : db.apply now writes = .ok db') : Selected orgId invoiceId items db' := by
  induction writes generalizing db with
  | nil => cases happly; exact h
  | cons write writes ih =>
    rw [List.forall_mem_cons] at hwrites
    obtain ⟨db₁, h₁, h₂⟩ := Db.apply_cons.mp happly
    exact ih (h.write hwrites.1 h₁) hwrites.2 h₂

/-- What an operation commits that does not replace the items. -/
theorem Selected.transition (h : Selected orgId invoiceId items db) {op : Op}
    (hop : ¬Replaces orgId invoiceId op) (ht : Transition db op db') :
    Selected orgId invoiceId items db' := by
  obtain ⟨i, hi, horg, hid⟩ := h.exists_invoice
  have hnew : ∀ {id : String} {new : List InvoiceLineItem}, id ≠ invoiceId →
      (∀ item ∈ new, item.invoiceId = id) →
        ∀ write ∈ new.map Write.insertLineItem, write.Spares invoiceId items := by
    intro id new hne hnew write hwrite
    obtain ⟨item, hitem, rfl⟩ := List.mem_map.mp hwrite
    show item.invoiceId ≠ invoiceId
    rw [hnew item hitem]
    exact hne
  cases ht with
  | @create org userId body invoice new now _ hbuilt htotals _ _ _ _ _ _ _ happly =>
    obtain ⟨db₁, h₁, _⟩ := Db.apply_cons.mp happly
    obtain ⟨_, hfresh, _⟩ := Write.apply_insertInvoice h₁
    have hne : invoice.id ≠ invoiceId := fun heq => hfresh i hi (hid.trans heq.symm)
    have hspares : ∀ write ∈ Write.insertInvoice invoice :: new.map .insertLineItem,
        write.Spares invoiceId items :=
      List.forall_mem_cons.mpr ⟨trivial, hnew hne hbuilt.invoiceId⟩
    exact h.apply hspares happly
  | @update org id userId body loaded current new writes now _ hloaded _ hedits _ happly =>
    suffices hspares : ∀ write ∈ writes, write.Spares invoiceId items by
      have hall : ∀ write ∈ Write.updateInvoice loaded current :: writes,
          write.Spares invoiceId items := List.forall_mem_cons.mpr ⟨trivial, hspares⟩
      exact h.apply hall happly
    unfold EditsItems at hedits
    cases hbody : body.lineItems with
    | none =>
      rw [hbody] at hedits
      rw [hedits.2]
      simp
    | some requested =>
      rw [hbody] at hedits
      obtain ⟨old, hold, hbuilt, rfl⟩ := hedits
      have hne : id ≠ invoiceId := by
        rintro rfl
        have hsame : i = loaded := invoice_eq_of_id db hi hloaded.mem (hid.trans hloaded.id.symm)
        refine hop ⟨?_, rfl, by rw [hbody]; rfl⟩
        rw [← hloaded.orgId, ← hsame, horg]
      intro write hwrite
      rcases List.mem_append.mp hwrite with hwrite | hwrite
      · obtain ⟨other, hother, rfl⟩ := List.mem_map.mp hwrite
        have hmem := List.mem_filter.mp (hold.mem_iff.mp hother)
        intro item hitem heq
        rw [← h.selectItems] at hitem
        have hitem' := List.mem_filter.mp hitem
        have hsame : item = other :=
          db.lineItems.eq_of_clash hitem'.1 hmem.1 (by simp [lineItemSchema, heq])
        simp only [Bool.and_eq_true, beq_iff_eq] at hmem hitem'
        exact hne (hmem.2.2.symm.trans ((congrArg (·.invoiceId) hsame).symm.trans hitem'.2.2))
      · exact hnew hne hbuilt.invoiceId write hwrite
  | softDelete _ happly => exact h.apply (by simp [Write.Spares]) happly
  | send _ _ happly => exact h.apply (by simp [Write.Spares]) happly
  | pay _ _ happly => exact h.apply (by simp [Write.Spares]) happly
  | void _ _ happly => exact h.apply (by simp [Write.Spares]) happly

/-- **Requests that do not replace the items leave them as they are.** -/
theorem selected_runAll (h : Selected orgId invoiceId items db) (rs : List Request)
    (hrs : ∀ r ∈ rs, ¬Replaces orgId invoiceId r.op) :
    Selected orgId invoiceId items (runAll db rs) := by
  induction rs generalizing db with
  | nil => exact h
  | cons r rs ih =>
    rw [List.forall_mem_cons] at hrs
    refine ih ?_ hrs.2
    rcases exec_op r.op r.oracle ⟨r.core, db⟩ with hsame | ht
    · rw [Request.apply, hsame]
      exact h
    · exact h.transition hrs.1 ht

end Selected

/-! ### The items of a request -/

/-- The operation has changed the database, and its line items are those of this invoice. -/
inductive Files (db db' : Db) : Op → String → String → Prop
  | create {orgId userId : String} {body : InvoiceCreateRequest} {i : Invoice}
      (hi : i ∈ db'.invoices.rows) (hnew : i ∉ db.invoices.rows) :
      Files db db' (.create orgId userId body) orgId i.id
  | update {orgId invoiceId userId : String} {body : InvoiceUpdateRequest} (hchanged : db' ≠ db)
      (hbody : body.lineItems.isSome) : Files db db' (.update orgId invoiceId userId body) orgId invoiceId

theorem Files.ne {db db' : Db} {op : Op} {orgId invoiceId : String}
    (h : Files db db' op orgId invoiceId) : db' ≠ db := by
  cases h with
  | create hi hnew =>
    rintro rfl
    exact hnew hi
  | update hchanged _ => exact hchanged

/-- The rows `items` are stored as, at the end of the table and all there is of the invoice. -/
structure Filed (orgId invoiceId : String) (items : List InvoiceLineItem) (now : DateTime) (db : Db) :
    Prop where
  rows : ∃ kept, db.lineItems.rows = kept ++ items.map (InvoiceLineItem.stored now)
  selectItems : db.selectItems orgId invoiceId = items.map (InvoiceLineItem.stored now)
  loaded : ∃ i, Loaded db orgId invoiceId i

theorem length_of_built {orgId invoiceId : String} {body : List LineItemCreate}
    {items : List InvoiceLineItem} (h : Built orgId invoiceId body items) :
    items.length = body.length := by
  obtain ⟨built, hbuilt, hamounts⟩ := h.amounts
  have hlen := congrArg List.length hamounts
  rw [List.length_map, List.length_map] at hlen
  rw [hlen, (itemizes_buildLineItems hbuilt).length_eq]

theorem filter_stored_of_built {orgId invoiceId : String} {body : List LineItemCreate}
    {items : List InvoiceLineItem} (h : Built orgId invoiceId body items) (now : DateTime) :
    (items.map (InvoiceLineItem.stored now)).filter (fun i =>
      i.orgId == orgId && i.invoiceId == invoiceId) = items.map (InvoiceLineItem.stored now) := by
  rw [List.filter_eq_self]
  intro row hrow
  obtain ⟨item, hitem, rfl⟩ := List.mem_map.mp hrow
  simp [InvoiceLineItem.stored, h.orgId item hitem, h.invoiceId item hitem]

theorem isDeleted_recompute {body : InvoiceUpdateRequest} {loaded current : Invoice}
    {items : List InvoiceLineItem} (h : recompute body (withFields body loaded) items = .ok current) :
    current.isDeleted = loaded.isDeleted := by
  unfold recompute at h
  split at h
  · obtain ⟨_, _, _, rfl⟩ := withTotals_eq_ok h
    rfl
  · cases h
    rfl

theorem filed_create {orgId userId : String} {body : InvoiceCreateRequest} {db db' : Db}
    (hfk : ForeignKey db) {i : Invoice} (hi : i ∈ db'.invoices.rows) (hnew : i ∉ db.invoices.rows)
    (ht : Transition db (.create orgId userId body) db') :
    ∃ items now, items.length = body.lineItems.length ∧ Filed orgId i.id items now db' := by
  cases ht with
  | @create _ _ _ invoice items now _ hbuilt htotals horg _ _ _ _ _ hdeleted happly =>
    obtain ⟨db₁, h₁, h₂⟩ := Db.apply_cons.mp happly
    obtain ⟨hrows₁, hfresh, hlineItems₁, _⟩ := Write.apply_insertInvoice h₁
    obtain ⟨hrows₂, hinvoices₂, _⟩ := apply_insertLineItems h₂
    have hid : i = { invoice with createdAt := now } := by
      rw [hinvoices₂, hrows₁, List.mem_append, List.mem_singleton] at hi
      exact hi.resolve_left hnew
    subst hid
    rw [hlineItems₁] at hrows₂
    refine ⟨items, now, length_of_built hbuilt, ⟨_, hrows₂⟩, ?_, _, hi, horg, rfl, hdeleted⟩
    have hnone : db.lineItems.rows.filter (fun t => t.orgId == orgId && t.invoiceId == invoice.id) =
        [] := by
      rw [List.filter_eq_nil_iff]
      intro t ht
      obtain ⟨j, hj, hjid⟩ := hfk t ht
      have hne : t.invoiceId ≠ invoice.id := fun heq => hfresh j hj (hjid.trans heq)
      simp [hne]
    show db'.lineItems.rows.filter (fun t => t.orgId == orgId && t.invoiceId == invoice.id) = _
    rw [hrows₂, List.filter_append, hnone, filter_stored_of_built hbuilt, List.nil_append]

theorem filed_update {orgId invoiceId userId : String} {body : InvoiceUpdateRequest} {db db' : Db}
    (hbody : body.lineItems.isSome) (ht : Transition db (.update orgId invoiceId userId body) db') :
    ∃ items now, items.length = (body.lineItems.getD []).length ∧
      Filed orgId invoiceId items now db' := by
  cases ht with
  | @update _ _ _ _ loaded current items writes now _ hloaded _ hedits hcurrent happly =>
    obtain ⟨requested, hrequested⟩ := Option.isSome_iff_exists.mp hbody
    unfold EditsItems at hedits
    rw [hrequested] at hedits
    obtain ⟨old, hold, hbuilt, rfl⟩ := hedits
    obtain ⟨db₁, h₁, h₂⟩ := Db.apply_cons.mp happly
    obtain ⟨db₂, h₃, h₄⟩ := Db.apply_append.mp h₂
    obtain ⟨hrows₁, hlineItems₁, _⟩ := Write.apply_updateInvoice h₁
    obtain ⟨hrows₃, hinvoices₃, _⟩ := apply_deleteLineItems h₃
    obtain ⟨hrows₄, hinvoices₄, _⟩ := apply_insertLineItems h₄
    have hsame := sameInvoice_recompute hcurrent
    have hmem : current ∈ db'.invoices.rows := by
      rw [hinvoices₄, hinvoices₃, hrows₁]
      refine List.mem_map.mpr ⟨loaded, hloaded.mem, ?_⟩
      rw [if_pos hsame.id.symm, patch_loaded hsame]
    refine ⟨items, now, by rw [hrequested]; exact length_of_built hbuilt, ⟨_, hrows₄⟩, ?_, current,
      hmem, hsame.orgId.trans hloaded.orgId, hsame.id.trans hloaded.id,
      (isDeleted_recompute hcurrent).trans hloaded.isDeleted⟩
    have hnone : db₂.lineItems.rows.filter (fun t => t.orgId == orgId && t.invoiceId == invoiceId) =
        [] := by
      rw [hrows₃, hlineItems₁, List.filter_filter, List.filter_eq_nil_iff]
      intro t ht hboth
      rw [Bool.and_eq_true] at hboth
      have htold : t ∈ old := hold.mem_iff.mpr (List.mem_filter.mpr ⟨ht, hboth.1⟩)
      have hgone : (old.map (·.id)).contains t.id = true :=
        List.contains_iff_mem.mpr (List.mem_map_of_mem htold)
      rw [hgone] at hboth
      exact absurd hboth.2 (by decide)
    rw [Db.selectItems, hrows₄, List.filter_append, hnone, filter_stored_of_built hbuilt,
      List.nil_append]

/-- What a request has filed is what it says, item by item. -/
theorem filed_of_files {op : Op} {o : Oracle Choice} {w : World} {orgId invoiceId : String}
    (hfk : ForeignKey w.db)
    (h : Files w.db (exec Call.answer op.prog o w).2.db op orgId invoiceId) :
    ∃ items now, List.Forall₂ Itemizes op.lineItems items ∧
      Filed orgId invoiceId items now (exec Call.answer op.prog o w).2.db := by
  have ht := (exec_op op o w).resolve_left h.ne
  obtain ⟨kept, items, now, _, hrows, hitemizes⟩ := (exec_op_lineItems op o w).resolve_left h.ne
  have hfiled : ∃ items' now', items'.length = op.lineItems.length ∧
      Filed orgId invoiceId items' now' (exec Call.answer op.prog o w).2.db := by
    cases h with
    | create hi hnew => exact filed_create hfk hi hnew ht
    | update _ hbody => exact filed_update hbody ht
  obtain ⟨items', now', hlen, ⟨kept', hrows'⟩, hselect, hloaded⟩ := hfiled
  -- both are the rows at the end of the table, and as many
  have hsame : items'.map (InvoiceLineItem.stored now') = items.map (InvoiceLineItem.stored now) := by
    refine (List.append_inj' (hrows'.symm.trans hrows) ?_).2
    rw [List.length_map, List.length_map, hlen, hitemizes.length_eq]
  exact ⟨items, now, hitemizes, ⟨kept, hrows⟩, hselect.trans hsame, hloaded⟩

/-! ### What is seen of them -/

/-- The document that is built lists these descriptions. -/
def Prints (descriptions : List String) : Call → Prop
  | .buildPdf elements => ∃ i items settings, elements = invoiceElements i items settings ∧
      items.map (·.description) = descriptions
  | _ => True

/-- Each way to read the items of an invoice gives these descriptions in this order. -/
structure SeenAs (orgId invoiceId : String) (descriptions : List String) (db : Db) : Prop where
  get : ∀ userId core i items w',
    Yields Call.answer (getInvoice orgId userId invoiceId) ⟨core, db⟩ (i, items) w' →
      items.map (·.description) = descriptions
  list : ∀ userId statuses skip limit core results total w',
    Yields Call.answer (listInvoices orgId userId statuses skip limit) ⟨core, db⟩ (results, total) w' →
      ∀ r ∈ results, r.1.id = invoiceId → r.2.map (·.description) = descriptions
  send : ∀ userId recipientEmail o core,
    Along Call.answer (fun c _ _ => Prints descriptions c)
      (sendInvoice orgId invoiceId userId recipientEmail) o ⟨core, db⟩

/-- What a list that is all one value can be reordered to. -/
theorem eq_of_perm_of_constant {l l' : List String} (hperm : l.Perm l')
    (hconst : ∀ x ∈ l', ∀ y ∈ l', x = y) : l = l' := by
  match l', hconst with
  | [], _ => exact hperm.eq_nil
  | x :: rest, hconst =>
    have hsame : x :: rest = List.replicate (rest.length + 1) x :=
      List.eq_replicate_iff.mpr ⟨rfl, fun y hy => hconst y hy x (by simp)⟩
    rw [hsame] at hperm ⊢
    exact List.perm_replicate.mp hperm

/-- A document is printed only between the items' selection and the commit. -/
def printing (descriptions : List String) : Contract Call Call.Resp PyErr Choice World where
  answer := Call.answer
  rely w w' := w'.db = w.db
  admits _ _ _ := True
  guar c _ _ _ := Prints descriptions c
  rely_refl := sameDb_refl
  rely_trans := sameDb_trans

/-- The call builds no document, and commits nothing. -/
def Call.Plain : Call → Prop
  | .commit _ => False
  | .buildPdf _ => False
  | _ => True

theorem Call.Plain.quiet {c : Call} (h : c.Plain) : c.Quiet := by
  cases c <;> trivial

theorem Call.Plain.prints {c : Call} (h : c.Plain) (descriptions : List String) :
    Prints descriptions c := by
  cases c <;> trivial

section Printing

variable {descriptions : List String} {α β : Type} {w : World}

theorem printing_of_plain {p : Prog α} (hp : p.Calls Call.Plain) {Q : Except PyErr α → World → Prop}
    (hQ : ∀ r w', w'.db = w.db → Q r w') : (printing descriptions).wp p w Q := by
  refine Contract.wp_of_calls (fun c hc x w' _ => ?_) hp p.returns_true
    (fun a w' hw _ => hQ _ w' hw) fun e w' hw => hQ _ w' hw
  exact ⟨hc.prints descriptions, db_answer_of_quiet hc.quiet x w'⟩

theorem printing_bind {p : Prog α} {f : α → Prog β} (hp : p.Calls Call.Plain)
    (hf : ∀ a w', w'.db = w.db → (printing descriptions).wp (f a) w' fun _ _ => True) :
    (printing descriptions).wp (p.bind f) w fun _ _ => True := by
  refine Contract.wp_bind (printing_of_plain hp fun r w' hw => ?_)
  cases r with
  | ok a => exact hf a w' hw
  | error e => trivial

theorem printing_ofExcept {x : Except PyErr α} {f : α → Prog β}
    (hf : ∀ a, (printing descriptions).wp (f a) w fun _ _ => True) :
    (printing descriptions).wp ((Proc.ofExcept x).bind f) w fun _ _ => True := by
  cases x with
  | ok a => exact hf a
  | error e => trivial

theorem printing_run {c : Call} {f : c.Resp → Prog β}
    (hf : ∀ x w', w'.db = w.db → Prints descriptions c ∧ ∀ a, (c.answer x w').1 = .ok a →
      (printing descriptions).wp (f a) (c.answer x w').2 fun _ _ => True) :
    (printing descriptions).wp ((run c).bind f) w fun _ _ => True := by
  refine Contract.wp_bind (Contract.wp_perform fun w' hw x _ => ?_)
  obtain ⟨hprints, hnext⟩ := hf x w' hw
  refine ⟨hprints, ?_⟩
  change (printing descriptions).next f (fun _ _ => True) (c.answer x w').1 (c.answer x w').2
  cases hr : (c.answer x w').1 with
  | ok a => exact hnext a hr
  | error e => trivial

end Printing

theorem calls_plain_core {α : Type} (p : Core.Prog α) : (core p).Calls Call.Plain :=
  (p.calls_true.mono fun _ _ => trivial).embed

/-- `send_invoice` prints the items as they are selected. -/
theorem prints_sendInvoice {orgId invoiceId userId recipientEmail : String}
    {descriptions : List String} {w : World}
    (hitems : ∀ items : List InvoiceLineItem, items.Perm (w.db.selectItems orgId invoiceId) →
      items.map (·.description) = descriptions) :
    (printing descriptions).wp (sendInvoice orgId invoiceId userId recipientEmail) w
      fun _ _ => True := by
  refine printing_bind (calls_requireMutationRole trivial) fun _ w₁ h₁ => ?_
  refine printing_bind ?_ fun loaded w₂ h₂ => ?_
  · exact (Calls.perform trivial).bind fun found => by cases found <;> trivial
  refine printing_ofExcept fun _ => ?_
  refine printing_run fun x w₃ h₃ => ⟨trivial, fun items hreply => ?_⟩
  have hperm := perm_of_answer hreply
  rw [h₃, h₂, h₁] at hperm
  refine printing_bind (calls_plain_core _) fun orgSettings w₄ h₄ => ?_
  refine printing_run fun x w₅ h₅ =>
    ⟨⟨loaded, items, orgSettings, rfl, hitems items hperm⟩, fun pdfBytes _ => ?_⟩
  refine printing_bind (calls_plain_core _) fun stored w₆ h₆ => ?_
  refine printing_bind (calls_plain_core _) fun emailResult w₇ h₇ => ?_
  refine printing_run fun x w₈ h₈ => ⟨trivial, fun _ _ => ?_⟩
  refine printing_bind (Calls.perform trivial) fun invoice w₉ h₉ => ?_
  exact printing_bind (calls_plain_core _) fun _ _ _ => trivial

theorem descriptions_of_itemizes {body : List LineItemCreate} {items : List InvoiceLineItem}
    (h : List.Forall₂ Itemizes body items) :
    items.map (·.description) = body.map (·.description) := by
  induction h with
  | nil => rfl
  | cons hitem _ ih => rw [List.map_cons, List.map_cons, hitem.description, ih]

/-- Items that cannot be told apart are seen the same whatever their order. -/
theorem seenAs_of_constant {orgId invoiceId : String} {descriptions : List String} {db : Db}
    (hselect : (db.selectItems orgId invoiceId).map (·.description) = descriptions)
    (hconst : ∀ x ∈ descriptions, ∀ y ∈ descriptions, x = y) :
    SeenAs orgId invoiceId descriptions db := by
  have hitems : ∀ items : List InvoiceLineItem, items.Perm (db.selectItems orgId invoiceId) →
      items.map (·.description) = descriptions := by
    intro items hperm
    exact eq_of_perm_of_constant (hselect ▸ hperm.map (·.description)) hconst
  refine ⟨fun userId core i items w' h => hitems items (perm_of_getInvoice h), ?_, ?_⟩
  · rintro userId statuses skip limit core results total w' h r hr rfl
    obtain ⟨_, _, hall⟩ := listInvoices_inv h
    exact hitems r.2 (hall r hr)
  · intro userId recipientEmail o core
    exact Contract.along_guar (prints_sendInvoice hitems)
      (along_of_forall _ (fun _ _ _ _ _ => trivial) _)

/-- Items that are seen in one order only cannot be told apart. -/
theorem constant_of_seenAs {orgId invoiceId : String} {items : List InvoiceLineItem} {now : DateTime}
    {db : Db} {descriptions : List String} (hfiled : Filed orgId invoiceId items now db)
    (h : SeenAs orgId invoiceId descriptions db) : ∀ x ∈ items, ∀ y ∈ items,
      x.description = y.description := by
  obtain ⟨i, hi⟩ := hfiled.loaded
  have hnodup : ((items.map (InvoiceLineItem.stored now)).map (·.id)).Nodup := by
    rw [← hfiled.selectItems, List.nodup_iff_pairwise_ne, List.pairwise_map]
    refine (db.lineItems.unique.sublist List.filter_sublist).imp fun hclash hid => ?_
    simp [lineItemSchema, hid] at hclash
  have hsorted : ∀ order : List InvoiceLineItem, order.Perm (items.map (InvoiceLineItem.stored now)) →
      order.Pairwise fun a b => a.createdAt.ordinal ≤ b.createdAt.ordinal := by
    intro order hperm
    have hnow : ∀ row ∈ order, row.createdAt = now := by
      intro row hrow
      obtain ⟨item, _, rfl⟩ := List.mem_map.mp (hperm.mem_iff.mp hrow)
      rfl
    refine List.pairwise_of_forall_mem_list fun a ha b hb => ?_
    rw [hnow a ha, hnow b hb]
  -- any of the items may come first
  have hfirst : ∀ x ∈ items, descriptions.head? = some x.description := by
    intro x hx
    have hmem : x.stored now ∈ items.map (InvoiceLineItem.stored now) := List.mem_map_of_mem hx
    have hperm := (List.perm_cons_erase hmem).symm
    obtain ⟨tie, htie⟩ := exists_tie InvoiceLineItem.createdAt InvoiceLineItem.id
      (hsorted _ hperm) (((hperm.map _).nodup_iff).mpr hnodup)
    have hseen := h.get "" _ _ _ _ (yields_getInvoice hi "" tie)
    rw [hfiled.selectItems, htie _ hperm.symm] at hseen
    rw [← hseen]
    rfl
  intro x hx y hy
  exact Option.some.inj ((hfirst x hx).symm.trans (hfirst y hy))

/-- **When the order of a request is seen again.** Whatever other requests follow, each way to read
the items gives the descriptions in the request's order, exactly when all the descriptions are the
same. -/
theorem seenInOrder_iff (op : Op) (o : Oracle Choice) (w : World) (orgId invoiceId : String)
    (hfk : ForeignKey w.db)
    (h : Files w.db (exec Call.answer op.prog o w).2.db op orgId invoiceId) :
    (∀ rs : List Request, (∀ r ∈ rs, ¬Replaces orgId invoiceId r.op) →
        SeenAs orgId invoiceId (op.lineItems.map (·.description))
          (runAll (exec Call.answer op.prog o w).2.db rs)) ↔
      ∀ x ∈ op.lineItems, ∀ y ∈ op.lineItems, x.description = y.description := by
  obtain ⟨items, now, hitemizes, hfiled⟩ := filed_of_files hfk h
  have hsame : items.map (·.description) = op.lineItems.map (·.description) :=
    descriptions_of_itemizes hitemizes
  have hmem : ∀ x ∈ op.lineItems, ∃ item ∈ items, item.description = x.description := by
    intro x hx
    have hx' : x.description ∈ items.map (·.description) := by
      rw [hsame]
      exact List.mem_map.mpr ⟨x, hx, rfl⟩
    exact List.mem_map.mp hx'
  constructor
  · intro hseen x hx y hy
    have hnow := hseen [] (by simp)
    have hconst := constant_of_seenAs hfiled hnow
    obtain ⟨x', hx', hxd⟩ := hmem x hx
    obtain ⟨y', hy', hyd⟩ := hmem y hy
    rw [← hxd, ← hyd]
    exact hconst x' hx' y' hy'
  · intro hconst rs hrs
    obtain ⟨i, hi⟩ := hfiled.loaded
    have hselected : Selected orgId invoiceId (items.map (InvoiceLineItem.stored now))
        (exec Call.answer op.prog o w).2.db :=
      ⟨⟨i, hi.mem, hi.orgId, hi.id⟩, hfiled.selectItems⟩
    refine seenAs_of_constant ?_ ?_
    · rw [(selected_runAll hselected rs hrs).selectItems, ← hsame, List.map_map]
      rfl
    · intro x hx y hy
      obtain ⟨a, ha, rfl⟩ := List.mem_map.mp hx
      obtain ⟨b, hb, rfl⟩ := List.mem_map.mp hy
      exact hconst a ha b hb

/-! ### Two items -/

theorem foreignKey_empty : ForeignKey Db.empty := nofun

/-- An invoice over two items of one description. -/
def twiceWork : InvoiceCreateRequest :=
  { hundredCents with
    lineItems := [⟨"Work", ⟨1, 0⟩, 100, one_pos_coeff⟩, ⟨"Work", ⟨2, 0⟩, 50, by decide⟩]
    lineItems_ne_nil := List.cons_ne_nil _ _ }

/-- Two items of one description are seen as they were sent. -/
theorem seenInOrder_twiceWork :
    ∃ db invoiceId, ∀ rs : List Request, (∀ r ∈ rs, ¬Replaces "org" invoiceId r.op) →
      SeenAs "org" invoiceId ["Work", "Work"] (runAll db rs) := by
  obtain ⟨i, hi⟩ := List.exists_mem_of_ne_nil
    ((Request.calm (.create "org" "ada" twiceWork) "c").apply Db.empty).invoices.rows
    (by decide +kernel)
  refine ⟨_, i.id, (seenInOrder_iff (.create "org" "ada" twiceWork)
    (fun n => some (.calm ("c" ++ toString n))) ⟨.initial, Db.empty⟩ "org" i.id foreignKey_empty
    (.create hi List.not_mem_nil)).mpr (by decide)⟩

/-- An invoice over two items. -/
def twoItems : InvoiceCreateRequest :=
  { hundredCents with
    lineItems := [⟨"First", ⟨1, 0⟩, 100, one_pos_coeff⟩, ⟨"Second", ⟨1, 0⟩, 100, one_pos_coeff⟩]
    lineItems_ne_nil := List.cons_ne_nil _ _ }

/-- Its creation. -/
def createTwoItems : Request := .calm (.create "org" "ada" twoItems) "c"

theorem not_seenInOrder :
    ¬ ∀ (op : Op) (o : Oracle Choice) (w : World) (orgId invoiceId : String), ForeignKey w.db →
      Files w.db (exec Call.answer op.prog o w).2.db op orgId invoiceId →
        ∀ rs : List Request, (∀ r ∈ rs, ¬Replaces orgId invoiceId r.op) →
          SeenAs orgId invoiceId (op.lineItems.map (·.description))
            (runAll (exec Call.answer op.prog o w).2.db rs) := by
  intro h
  obtain ⟨i, hi⟩ := List.exists_mem_of_ne_nil (createTwoItems.apply Db.empty).invoices.rows
    (by decide +kernel)
  have hfiles : Files Db.empty (createTwoItems.apply Db.empty) createTwoItems.op "org" i.id :=
    .create hi List.not_mem_nil
  obtain ⟨items, now, hitemizes, hfiled⟩ := filed_of_files
    (w := ⟨createTwoItems.core, Db.empty⟩) foreignKey_empty hfiles
  have hseen := h createTwoItems.op createTwoItems.oracle ⟨createTwoItems.core, Db.empty⟩ "org" i.id
    foreignKey_empty hfiles [] (by simp)
  have hconst := constant_of_seenAs hfiled hseen
  cases hitemizes with
  | cons hfirst hrest =>
    cases hrest with
    | cons hsecond _ =>
      have heq := hconst _ (List.mem_cons_self) _ (List.mem_cons_of_mem _ List.mem_cons_self)
      rw [hfirst.description, hsecond.description] at heq
      exact absurd heq (by decide)

end A2ZCore.Invoicing
