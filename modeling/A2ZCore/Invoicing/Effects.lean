import A2ZCore.Invoicing.Service

/-!
# What the calls and the writes do

One lemma for each way the service touches its tables: which calls leave the database alone, what a
commit can do to it, what each kind of write does to the rows, and what a loaded row is.

## Main results

* `db_answer_of_quiet`, `answer_commit_cases` — only a commit changes the database, and by its
  writes as a whole or not at all
* `Db.apply_cons`, `Write.apply_updateInvoice`, `apply_insertLineItems` — the writes
* `patch_loaded` — an `UPDATE` of the row that was loaded leaves the session's object
-/

namespace A2ZCore.Invoicing

open Interaction Relational

/-! ### Calls -/

/-- The call is not a commit. -/
def Call.Quiet : Call → Prop
  | .commit _ => False
  | _ => True

/-- Only a commit changes the database. -/
theorem db_answer_of_quiet {c : Call} (hc : c.Quiet) (x : Choice) (w : World) :
    (c.answer x w).2.db = w.db := by
  have hread : ∀ {α : Type} (r : Except PyErr α),
      (x.fate.settle (r.map fun a => (a, w)) w).2.db = w.db := by
    intro α r
    refine Core.Fate.settle_frame _ _ _ World.db fun a w' h => ?_
    cases r with
    | error e => cases h
    | ok b => cases h; rfl
  cases c with
  | commit writes => exact hc.elim
  | core c => rfl
  | today => rfl
  | _ => exact hread _

/-- A program of Core makes no commit. -/
theorem calls_quiet_core {α : Type} (p : Core.Prog α) : (core p).Calls Call.Quiet :=
  (p.calls_true.mono fun _ _ => trivial).embed

/-- The check of the role reads one membership. -/
theorem calls_requireMutationRole {P : Call → Prop} {userId orgId : String}
    (hP : P (.core (.getMembershipItem userId orgId))) :
    (requireMutationRole userId orgId).Calls P := by
  have hget : (core (Core.getMembership userId orgId)).Calls P :=
    Proc.Calls.embed (Proc.Calls.perform hP)
  refine Proc.Calls.bind (Proc.Calls.bind hget fun found => ?_) fun membership => ?_
  · cases found <;> trivial
  · split <;> trivial

/-- A commit leaves everything as it was and fails, or carries out all its writes. -/
theorem answer_commit_cases (writes : List Write) (x : Choice) (w : World) :
    (∃ e, (Call.commit writes).answer x w = (.error e, w)) ∨
      ∃ db, w.db.apply x.now writes = .ok db ∧
        ((Call.commit writes).answer x w = (.ok (), { w with db := db }) ∨
          ∃ e, (Call.commit writes).answer x w = (.error e, { w with db := db })) := by
  have hcases := x.fate.settle_cases (((w.db.apply x.now writes).mapError violationErr).map
    fun db => ((), { w with db := db })) w
  rcases hcases with h | ⟨a, w', heff, h⟩
  · exact .inl h
  · refine .inr ?_
    cases hdb : w.db.apply x.now writes with
    | error v => rw [hdb] at heff; cases heff
    | ok db =>
      rw [hdb] at heff
      cases heff
      exact ⟨db, rfl, h⟩

/-- The commit takes effect: it is not lost, and the constraints hold. -/
def Lands (writes : List Write) (x : Choice) (w : World) : Prop :=
  (∀ e, x.fate ≠ .lost e) ∧ ∃ db, w.db.apply x.now writes = .ok db

/-- A commit carries out its writes when it lands, and nothing when it does not. -/
theorem commit_cases (writes : List Write) (x : Choice) (w : World) :
    (Lands writes x w ∧ ∃ db, w.db.apply x.now writes = .ok db ∧
        ((Call.commit writes).answer x w).2 = { w with db := db }) ∨
      (¬Lands writes x w ∧ ((Call.commit writes).answer x w).2 = w) := by
  cases hdb : w.db.apply x.now writes with
  | error v =>
    refine .inr ⟨fun ⟨_, db, h⟩ => ?_, ?_⟩
    · rw [hdb] at h
      cases h
    · rw [Call.answer, hdb, Except.mapError, Except.map, Core.Fate.settle_error]
  | ok db =>
    cases hfate : x.fate with
    | lost e =>
      refine .inr ⟨fun h => h.1 e hfate, ?_⟩
      rw [Call.answer, hdb, hfate]
      rfl
    | ok | late e =>
      refine .inl ⟨⟨fun e' h => ?_, db, hdb⟩, db, rfl, ?_⟩
      · rw [hfate] at h
        cases h
      · rw [Call.answer, hdb, hfate]
        rfl

/-- Only Core's calls change the remote services. -/
theorem remote_answer (c : Call) (x : Choice) (w : World) :
    (c.answer x w).2.core = w.core ∨
      ∃ c', c = .core c' ∧ (c.answer x w).2.core = (c'.answer x.toChoice w.core).2 := by
  have hread : ∀ {α : Type} (r : Except PyErr α),
      (x.fate.settle (r.map fun a => (a, w)) w).2.core = w.core := by
    intro α r
    refine Core.Fate.settle_frame _ _ _ World.core fun a w' h => ?_
    cases r with
    | error e => cases h
    | ok b => cases h; rfl
  cases c with
  | core c => exact .inr ⟨c, rfl, rfl⟩
  | today => exact .inl rfl
  | commit writes =>
    left
    rcases answer_commit_cases writes x w with ⟨e, he⟩ | ⟨db', _, he | ⟨e, he⟩⟩ <;> rw [he]
  | _ => exact .inl (hread _)

/-! ### Lookups -/

/-- A read that succeeds replies with what it reads. -/
theorem reply_of_read {α : Type} {r : Except PyErr α} {x : Choice} {w : World} {a : α}
    (h : (x.fate.settle (r.map fun a => (a, w)) w).1 = .ok a) : r = .ok a := by
  cases r with
  | error e =>
    rw [Except.map, Core.Fate.settle_error] at h
    cases h
  | ok b => cases hx : x.fate <;> rw [hx] at h <;> cases h; rfl

/-- A table has at most one row with an id. -/
theorem invoice_eq_of_id (db : Db) {i j : Invoice} (hi : i ∈ db.invoices.rows)
    (hj : j ∈ db.invoices.rows) (h : i.id = j.id) : i = j :=
  db.invoices.eq_of_clash hi hj (by simp [invoiceSchema, h])

/-- Selecting by the id of a row finds the row. -/
theorem Db.invoice_of_mem (db : Db) {i : Invoice} (hi : i ∈ db.invoices.rows) :
    db.invoice i.id = some i :=
  db.invoices.find?_eq_some_of_clash hi (by simp) fun j hj => by
    simp only [beq_iff_eq] at hj
    simp [invoiceSchema, hj]

theorem Db.mem_of_invoice {db : Db} {id : String} {i : Invoice} (h : db.invoice id = some i) :
    i ∈ db.invoices.rows ∧ i.id = id :=
  ⟨List.mem_of_find?_eq_some h, by simpa using List.find?_some h⟩

/-! ### Writes -/

/-- The columns no service function changes. -/
structure SameInvoice (i j : Invoice) : Prop where
  id : i.id = j.id
  orgId : i.orgId = j.orgId
  invoiceNumber : i.invoiceNumber = j.invoiceNumber
  currencyCode : i.currencyCode = j.currencyCode
  createdBy : i.createdBy = j.createdBy
  createdAt : i.createdAt = j.createdAt

/-- Updating the very row that was loaded leaves the session's object. -/
theorem patch_loaded {loaded current : Invoice} (h : SameInvoice current loaded) :
    patch loaded current loaded = current := by
  cases loaded
  cases current
  simp only [patch, column_self]
  obtain ⟨h1, h2, h3, h4, h5, h6⟩ := h
  simp only at h1 h2 h3 h4 h5 h6
  subst h1 h2 h3 h4 h5 h6
  rfl

@[simp] theorem Db.apply_nil (now : DateTime) (db : Db) : db.apply now [] = .ok db := rfl

/-- The writes of a transaction, one after the other. -/
theorem Db.apply_cons {now : DateTime} {write : Write} {writes : List Write} {db db' : Db} :
    db.apply now (write :: writes) = .ok db' ↔
      ∃ db₁, write.apply now db = .ok db₁ ∧ db₁.apply now writes = .ok db' := by
  unfold Db.apply
  rw [List.foldlM_cons]
  cases write.apply now db with
  | error v => simp [bind, Except.bind]
  | ok db₁ => simp [bind, Except.bind]

theorem Db.apply_append {now : DateTime} {writes writes' : List Write} {db db' : Db} :
    db.apply now (writes ++ writes') = .ok db' ↔
      ∃ db₁, db.apply now writes = .ok db₁ ∧ db₁.apply now writes' = .ok db' := by
  induction writes generalizing db with
  | nil => simp
  | cons write writes ih =>
    rw [List.cons_append, Db.apply_cons]
    constructor
    · rintro ⟨db₁, h₁, h₂⟩
      obtain ⟨db₂, h₃, h₄⟩ := ih.mp h₂
      exact ⟨db₂, Db.apply_cons.mpr ⟨db₁, h₁, h₃⟩, h₄⟩
    · rintro ⟨db₂, h₁, h₂⟩
      obtain ⟨db₁, h₃, h₄⟩ := Db.apply_cons.mp h₁
      exact ⟨db₁, h₃, ih.mpr ⟨db₂, h₄, h₂⟩⟩

theorem Write.apply_updateInvoice {now : DateTime} {loaded current : Invoice} {db db' : Db}
    (h : (Write.updateInvoice loaded current).apply now db = .ok db') :
    db'.invoices.rows = db.invoices.rows.map (fun row =>
        if row.id = current.id then patch loaded current row else row) ∧
      db'.lineItems = db.lineItems ∧ db'.payments = db.payments := by
  obtain ⟨t, ht, rfl⟩ := map_eq_ok h
  exact ⟨Table.rows_modify ht, rfl, rfl⟩

/-- The invoice with an id after an update. -/
theorem Db.invoice_update {db db' : Db} {loaded current : Invoice}
    (hrows : db'.invoices.rows = db.invoices.rows.map fun row =>
      if row.id = current.id then patch loaded current row else row) (id : String) :
    db'.invoice id = (db.invoice id).map fun row =>
      if row.id = current.id then patch loaded current row else row := by
  rw [Db.invoice, hrows, List.find?_map, Db.invoice]
  refine congrArg (Option.map _) (congrFun (congrArg List.find? (funext fun row => ?_)) _)
  show ((if row.id = current.id then patch loaded current row else row).id == id) = (row.id == id)
  split <;> rfl

theorem Write.apply_insertInvoice {now : DateTime} {invoice : Invoice} {db db' : Db}
    (h : (Write.insertInvoice invoice).apply now db = .ok db') :
    db'.invoices.rows = db.invoices.rows ++ [{ invoice with createdAt := now }] ∧
      (∀ i ∈ db.invoices.rows, i.id ≠ invoice.id) ∧
      db'.lineItems = db.lineItems ∧ db'.payments = db.payments := by
  obtain ⟨t, ht, rfl⟩ := map_eq_ok h
  refine ⟨Table.rows_insert ht, fun i hi hid => ?_, rfl, rfl⟩
  have hclash := Table.clash_of_insert ht hi
  simp [invoiceSchema, hid] at hclash

theorem Write.apply_insertPayment {now : DateTime} {payment : InvoicePayment} {db db' : Db}
    (h : (Write.insertPayment payment).apply now db = .ok db') :
    db'.payments.rows = db.payments.rows ++ [{ payment with recordedAt := now }] ∧
      db'.invoices = db.invoices ∧ db'.lineItems = db.lineItems := by
  obtain ⟨t, ht, rfl⟩ := map_eq_ok h
  exact ⟨Table.rows_insert ht, rfl, rfl⟩

theorem apply_insertLineItems {now : DateTime} {items : List InvoiceLineItem} {db db' : Db}
    (h : db.apply now (items.map .insertLineItem) = .ok db') :
    db'.lineItems.rows = db.lineItems.rows ++ items.map (InvoiceLineItem.stored now) ∧
      db'.invoices = db.invoices ∧ db'.payments = db.payments := by
  induction items generalizing db with
  | nil => cases h; simp
  | cons item items ih =>
    rw [List.map_cons, Db.apply_cons] at h
    obtain ⟨db₁, h₁, h₂⟩ := h
    obtain ⟨t, ht, rfl⟩ := map_eq_ok h₁
    obtain ⟨hrows, hinvoices, hpayments⟩ := ih h₂
    refine ⟨?_, hinvoices, hpayments⟩
    rw [hrows, Table.rows_insert ht]
    simp

theorem apply_deleteLineItems {now : DateTime} {items : List InvoiceLineItem} {db db' : Db}
    (h : db.apply now (items.map fun item => .deleteLineItem item.id) = .ok db') :
    db'.lineItems.rows =
        db.lineItems.rows.filter (fun item => !(items.map (·.id)).contains item.id) ∧
      db'.invoices = db.invoices ∧ db'.payments = db.payments := by
  induction items generalizing db with
  | nil => cases h; simp
  | cons item items ih =>
    rw [List.map_cons, Db.apply_cons] at h
    obtain ⟨db₁, h₁, h₂⟩ := h
    cases h₁
    obtain ⟨hrows, hinvoices, hpayments⟩ := ih h₂
    refine ⟨?_, hinvoices, hpayments⟩
    rw [hrows, Table.rows_delete, List.filter_filter]
    refine List.filter_congr fun row _ => ?_
    rw [List.map_cons, List.contains_cons, Bool.not_or, Bool.and_comm]

/-- The `UPDATE` of a row that is as it was loaded, in a table where ids are unique. -/
theorem rows_update_loaded {db : Db} {loaded current : Invoice}
    (hloaded : loaded ∈ db.invoices.rows) (hsame : SameInvoice current loaded) :
    (db.invoices.rows.map fun row => if row.id = current.id then patch loaded current row else row) =
      db.invoices.rows.map fun row => if row.id = current.id then current else row := by
  refine List.map_congr_left fun row hrow => ?_
  by_cases hid : row.id = current.id
  · have hrow_eq : row = loaded := invoice_eq_of_id db hrow hloaded (hid.trans hsame.id)
    rw [if_pos hid, if_pos hid, hrow_eq, patch_loaded hsame]
  · rw [if_neg hid, if_neg hid]

end A2ZCore.Invoicing
