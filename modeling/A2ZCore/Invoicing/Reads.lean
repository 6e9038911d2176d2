import A2ZCore.Invoicing.Transitions
import A2ZCore.Lib.Commit

/-!
# What the reads reply with

`get_invoice` and `list_invoices`, run alone: they leave the database as it is, what they return is
read from it, and the rows that tie on a time come in any order there is.

## Main results

* `yields_getInvoice`, `perm_of_getInvoice` — the line items `get_invoice` returns
* `yields_listInvoices`, `listInvoices_inv` — the invoices, the line items and the total that
  `list_invoices` returns
-/

namespace A2ZCore.Invoicing

open Interaction Interaction.Proc

/-- The world of a request that finds the database as it is, and its user an owner. -/
def ownerWorld (db : Db) : World := ⟨.initial, db⟩

/-- A call that goes through, with the ties of its rows decided. -/
def Choice.tied (tie : String → ℕ) : Choice := { Choice.calm "" with tie := tie }

/-! ### Parts of the reads -/

theorem calls_quiet_requireMembership (userId orgId : String) :
    (requireMembership userId orgId).Calls Call.Quiet := by
  refine (calls_quiet_core _).bind fun found => ?_
  cases found <;> trivial

theorem db_of_yields {α : Type} {p : Prog α} (hp : p.Calls Call.Quiet) {w w' : World} {a : α}
    (h : Yields Call.answer p w a w') : w'.db = w.db := by
  obtain ⟨o, ho⟩ := h
  have hview := Calls.exec_view (fun c hc x w => db_answer_of_quiet hc x w) hp o w
  rwa [ho] at hview

theorem yields_requireMembership (userId orgId : String) (db : Db) :
    ∃ m, Yields Call.answer (requireMembership userId orgId) (ownerWorld db) m (ownerWorld db) :=
  ⟨_, fun _ => some (.tied fun _ => 0), rfl⟩

theorem yields_loadInvoice {db : Db} {orgId invoiceId : String} {i : Invoice}
    (h : Loaded db orgId invoiceId i) :
    Yields Call.answer (loadInvoice orgId invoiceId) (ownerWorld db) i (ownerWorld db) := by
  have hrows : db.invoices.rows.filter (fun i =>
      i.orgId == orgId && i.id == invoiceId && !i.isDeleted) = [i] := by
    refine Relational.Table.filter_eq_singleton_of_clash _ h.mem
      (by simp [h.orgId, h.id, h.isDeleted]) fun j hj => ?_
    simp only [Bool.and_eq_true, beq_iff_eq] at hj
    simp [invoiceSchema, hj.1.2, h.id]
  refine Yields.bind (a := some i) (Yields.perform (.tied fun _ => 0) ?_) (Yields.ret _ _)
  change (Core.Fate.ok).settle ((scalarOneOrNone (db.invoices.rows.filter fun i =>
      i.orgId == orgId && i.id == invoiceId && !i.isDeleted)).map fun a => (a, ownerWorld db)) _ = _
  rw [hrows]
  rfl

theorem yields_loadLineItems (orgId invoiceId : String) (tie : String → ℕ) (db : Db) :
    Yields Call.answer (loadLineItems orgId invoiceId) (ownerWorld db)
      (orderBy (·.createdAt) (·.id) tie (db.selectItems orgId invoiceId)) (ownerWorld db) :=
  Yields.perform (.tied tie) rfl

theorem loadLineItems_inv {orgId invoiceId : String} {w w' : World} {items : List InvoiceLineItem}
    (h : Yields Call.answer (loadLineItems orgId invoiceId) w items w') :
    w' = w ∧ items.Perm (w.db.selectItems orgId invoiceId) := by
  obtain ⟨x, hx⟩ := Yields.perform_inv h
  refine ⟨?_, perm_of_answer (congrArg Prod.fst hx)⟩
  have hreply := reply_of_read (congrArg Prod.fst hx)
  cases hreply
  cases hfate : x.fate <;> rw [Call.answer, hfate] at hx <;> cases hx
  rfl

/-! ### `get_invoice` -/

theorem yields_getInvoice {db : Db} {orgId invoiceId : String} {i : Invoice}
    (h : Loaded db orgId invoiceId i) (userId : String) (tie : String → ℕ) :
    Yields Call.answer (getInvoice orgId userId invoiceId) (ownerWorld db)
      (i, orderBy (·.createdAt) (·.id) tie (db.selectItems orgId invoiceId)) (ownerWorld db) := by
  obtain ⟨m, hm⟩ := yields_requireMembership userId orgId db
  exact hm.bind ((yields_loadInvoice h).bind
    ((yields_loadLineItems orgId invoiceId tie db).bind (Yields.ret _ _)))

theorem perm_of_getInvoice {orgId userId invoiceId : String} {w w' : World} {i : Invoice}
    {items : List InvoiceLineItem}
    (h : Yields Call.answer (getInvoice orgId userId invoiceId) w (i, items) w') :
    items.Perm (w.db.selectItems orgId invoiceId) := by
  obtain ⟨m, w₁, hm, h⟩ := h.bind_inv
  obtain ⟨j, w₂, hj, h⟩ := h.bind_inv
  obtain ⟨found, w₃, hfound, h⟩ := h.bind_inv
  obtain ⟨_, hperm⟩ := loadLineItems_inv hfound
  obtain ⟨heq, _⟩ := Yields.ret_inv h
  cases heq
  have hload : (loadInvoice orgId invoiceId).Calls Call.Quiet :=
    (Calls.perform trivial).bind fun found => by cases found <;> trivial
  rwa [db_of_yields hload hj, db_of_yields (calls_quiet_requireMembership _ _) hm] at hperm

/-! ### `list_invoices` -/

/-- One round of the loop of `list_invoices`. -/
def withItems (orgId : String) (results : List (Invoice × List InvoiceLineItem))
    (invoice : Invoice) : Prog (List (Invoice × List InvoiceLineItem)) := do
  let items ← loadLineItems orgId invoice.id
  return results ++ [(invoice, items)]

theorem yields_round (orgId : String) (db : Db) (results : List (Invoice × List InvoiceLineItem))
    (i : Invoice) : ∃ items, Yields Call.answer (withItems orgId results i) (ownerWorld db)
      (results ++ [(i, items)]) (ownerWorld db) := by
  refine ⟨orderBy (·.createdAt) (·.id) (fun _ => 0) (db.selectItems orgId i.id), ?_⟩
  unfold withItems
  exact (yields_loadLineItems orgId i.id (fun _ => 0) db).bind (Yields.ret _ _)

theorem yields_withItems (orgId : String) (db : Db) (invoices : List Invoice)
    (results : List (Invoice × List InvoiceLineItem)) :
    ∃ more, Yields Call.answer (Proc.forEach invoices results (withItems orgId)) (ownerWorld db)
      (results ++ more) (ownerWorld db) ∧ more.map Prod.fst = invoices := by
  induction invoices generalizing results with
  | nil =>
    refine ⟨[], ?_, rfl⟩
    rw [List.append_nil]
    exact Yields.ret _ _
  | cons i invoices ih =>
    obtain ⟨items, hround⟩ := yields_round orgId db results i
    obtain ⟨more, hmore, hfst⟩ := ih (results ++ [(i, items)])
    refine ⟨(i, items) :: more, ?_, by rw [List.map_cons, hfst]⟩
    rw [List.append_assoc] at hmore
    exact Yields.bind hround hmore

theorem round_inv {orgId : String} {results next : List (Invoice × List InvoiceLineItem)}
    {i : Invoice} {w w' : World} (h : Yields Call.answer (withItems orgId results i) w next w') :
    w' = w ∧ ∃ items, next = results ++ [(i, items)] ∧
      items.Perm (w.db.selectItems orgId i.id) := by
  unfold withItems at h
  obtain ⟨items, w₁, hitems, hret⟩ := h.bind_inv
  obtain ⟨heq, hw⟩ := Yields.ret_inv hret
  obtain ⟨hw₁, hperm⟩ := loadLineItems_inv hitems
  exact ⟨hw ▸ hw₁, items, heq.symm, hperm⟩

theorem withItems_inv {orgId : String} {invoices : List Invoice}
    {results final : List (Invoice × List InvoiceLineItem)} {w w' : World}
    (h : Yields Call.answer (Proc.forEach invoices results (withItems orgId)) w final w') :
    ∃ more, final = results ++ more ∧ more.map Prod.fst = invoices ∧
      ∀ r ∈ more, r.2.Perm (w.db.selectItems orgId r.1.id) := by
  induction invoices generalizing results w with
  | nil =>
    have hret : Yields Call.answer (.ret results) w final w' := h
    exact ⟨[], by rw [List.append_nil, (Yields.ret_inv hret).1], List.map_nil, by simp⟩
  | cons i invoices ih =>
    obtain ⟨next, w₁, hnext, hrest⟩ := Yields.bind_inv
      (f := fun s => Proc.forEach invoices s (withItems orgId)) h
    obtain ⟨rfl, items, rfl, hperm⟩ := round_inv hnext
    obtain ⟨more, hmore, hfst, hall⟩ := ih hrest
    refine ⟨(i, items) :: more, ?_, by rw [List.map_cons, hfst], ?_⟩
    · rw [hmore, List.append_assoc, List.singleton_append]
    · exact List.forall_mem_cons.mpr ⟨hperm, hall⟩

/-- The page of invoices a query replies with. -/
def invoicePage (db : Db) (orgId : String) (statuses : Option (List String)) (skip limit : ℕ)
    (tie : String → ℕ) : List Invoice :=
  ((orderBy (·.createdAt) (·.id) tie (listed orgId statuses db)).reverse.drop skip).take limit

theorem yields_listInvoices (db : Db) (orgId userId : String) (statuses : Option (List String))
    (skip limit : ℕ) (tie : String → ℕ) :
    ∃ results, results.map Prod.fst = invoicePage db orgId statuses skip limit tie ∧
      Yields Call.answer (listInvoices orgId userId statuses skip limit) (ownerWorld db)
        (results, (listed orgId statuses db).length) (ownerWorld db) := by
  obtain ⟨m, hm⟩ := yields_requireMembership userId orgId db
  obtain ⟨results, hresults, hfst⟩ :=
    yields_withItems orgId db (invoicePage db orgId statuses skip limit tie) []
  refine ⟨results, hfst, hm.bind ?_⟩
  refine Yields.bind (Yields.perform (c := Call.countInvoices orgId statuses) (.tied tie) rfl) ?_
  refine Yields.bind
    (Yields.perform (c := Call.selectInvoices orgId statuses skip limit) (.tied tie) rfl) ?_
  exact Yields.bind hresults (Yields.ret _ _)

theorem listInvoices_inv {orgId userId : String} {statuses : Option (List String)}
    {skip limit total : ℕ} {results : List (Invoice × List InvoiceLineItem)} {w w' : World}
    (h : Yields Call.answer (listInvoices orgId userId statuses skip limit) w (results, total) w') :
    total = (listed orgId statuses w.db).length ∧
      (∃ tie, results.map Prod.fst = invoicePage w.db orgId statuses skip limit tie) ∧
      ∀ r ∈ results, r.2.Perm (w.db.selectItems orgId r.1.id) := by
  obtain ⟨m, w₁, hm, h⟩ := h.bind_inv
  obtain ⟨count, w₂, hcount, h⟩ := h.bind_inv
  obtain ⟨invoices, w₃, hinvoices, h⟩ := h.bind_inv
  obtain ⟨found, w₄, hfound, hret⟩ := h.bind_inv
  obtain ⟨heq, _⟩ := Yields.ret_inv hret
  cases heq
  have hdb₁ := db_of_yields (calls_quiet_requireMembership _ _) hm
  have hdb₂ := db_of_yields (Calls.perform (c := Call.countInvoices orgId statuses) trivial) hcount
  have hdb₃ := db_of_yields
    (Calls.perform (c := Call.selectInvoices orgId statuses skip limit) trivial) hinvoices
  obtain ⟨x, hx⟩ := Yields.perform_inv hcount
  obtain ⟨y, hy⟩ := Yields.perform_inv hinvoices
  have hcount' := reply_of_read (congrArg Prod.fst hx)
  have hinvoices' := reply_of_read (congrArg Prod.fst hy)
  cases hcount'
  cases hinvoices'
  obtain ⟨more, hmore, hfst, hall⟩ := withItems_inv hfound
  rw [List.nil_append] at hmore
  subst hmore
  rw [hdb₃, hdb₂, hdb₁] at hall
  rw [hdb₁]
  refine ⟨rfl, ⟨y.tie, ?_⟩, hall⟩
  rw [hfst, hdb₂, hdb₁]
  rfl

end A2ZCore.Invoicing
