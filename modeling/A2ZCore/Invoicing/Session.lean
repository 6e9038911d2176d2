import A2ZCore.Core.Sql
import A2ZCore.Invoicing.Rendering
import A2ZCore.Lib.Contract

/-!
# Invoicing's database session

The statements the service sends through its session, and what they do. The session itself is
described in `Core.Sql`; an invoice that was loaded and changed is the write
`Write.updateInvoice loaded current`.

## Main definitions

* `Write`, `Db.apply` — a pending write, and a list of them applied as one transaction
* `Call`, `Call.answer` — the calls of the service and their effect
* `patch` — the row an `UPDATE` leaves
-/

namespace A2ZCore.Invoicing

open Interaction Relational

/-- A write that is pending in a session. -/
inductive Write where
  | insertInvoice (invoice : Invoice)
  | updateInvoice (loaded current : Invoice)
  | insertLineItem (item : InvoiceLineItem)
  | deleteLineItem (id : String)
  | insertPayment (payment : InvoicePayment)

/-- The row an `UPDATE` leaves: the columns the session changed, over what the row holds now. -/
def patch (loaded current row : Invoice) : Invoice :=
  { row with
    status := column loaded.status current.status row.status
    customerEmail := column loaded.customerEmail current.customerEmail row.customerEmail
    customerName := column loaded.customerName current.customerName row.customerName
    customerCompany := column loaded.customerCompany current.customerCompany row.customerCompany
    invoiceDate := column loaded.invoiceDate current.invoiceDate row.invoiceDate
    dueDate := column loaded.dueDate current.dueDate row.dueDate
    paymentTerms := column loaded.paymentTerms current.paymentTerms row.paymentTerms
    subtotalCents := column loaded.subtotalCents current.subtotalCents row.subtotalCents
    taxCents := column loaded.taxCents current.taxCents row.taxCents
    discountCents := column loaded.discountCents current.discountCents row.discountCents
    totalCents := column loaded.totalCents current.totalCents row.totalCents
    amountPaidCents := column loaded.amountPaidCents current.amountPaidCents row.amountPaidCents
    paymentStatus := column loaded.paymentStatus current.paymentStatus row.paymentStatus
    notes := column loaded.notes current.notes row.notes
    pdfS3Key := column loaded.pdfS3Key current.pdfS3Key row.pdfS3Key
    isDeleted := column loaded.isDeleted current.isDeleted row.isDeleted }

/-- The row a line item is stored as: `NUMERIC(12, 3)` keeps three places of the quantity. -/
def InvoiceLineItem.stored (now : DateTime) (item : InvoiceLineItem) : InvoiceLineItem :=
  { item with quantity := ⟨item.quantity.atScale 3, -3⟩, createdAt := now }

/-- One write. `now` is the transaction's `now()`, the default of the time columns. -/
def Write.apply (now : DateTime) : Write → Db → Except Violation Db
  | insertInvoice invoice, db =>
    (db.invoices.insert { invoice with createdAt := now }).map fun t => { db with invoices := t }
  | updateInvoice loaded current, db =>
    (db.invoices.modify fun row =>
      if row.id = current.id then patch loaded current row else row).map fun t =>
        { db with invoices := t }
  | insertLineItem item, db =>
    (db.lineItems.insert (item.stored now)).map fun t => { db with lineItems := t }
  | deleteLineItem id, db =>
    .ok { db with lineItems := db.lineItems.delete fun item => item.id == id }
  | insertPayment payment, db =>
    (db.payments.insert { payment with recordedAt := now }).map fun t => { db with payments := t }

/-- The writes of a transaction, in order. -/
def Db.apply (now : DateTime) (writes : List Write) (db : Db) : Except Violation Db :=
  writes.foldlM (fun db write => write.apply now db) db

/-- The remote services and the database. -/
structure World where
  core : Core.World
  db : Db

/-- What the environment decides at a call: for Core's calls, and beyond them the calendar day,
the order of rows that tie, and the bytes of a document. -/
structure Choice extends Core.Choice where
  today : Date
  tie : String → ℕ
  document : Bytes

/-- The calls of the service. -/
inductive Call where
  | core (c : Core.Call)
  | today
  | buildPdf (elements : List Flowable)
  | selectInvoice (orgId invoiceId : String)
  | selectLineItems (orgId invoiceId : String)
  | selectPaymentByKey (orgId idempotencyKey : String)
  | selectPayments (orgId invoiceId : String)
  | countInvoices (orgId : String) (statuses : Option (List String))
  | selectInvoices (orgId : String) (statuses : Option (List String)) (skip limit : ℕ)
  | flush (writes : List Write)
  | commit (writes : List Write)
  | refreshInvoice (id : String)
  | refreshPayment (id : String)

/-- What a call replies. -/
def Call.Resp : Call → Type
  | core c => c.Resp
  | today => Date
  | buildPdf _ => Bytes
  | selectInvoice _ _ => Option Invoice
  | selectLineItems _ _ => List InvoiceLineItem
  | selectPaymentByKey _ _ => Option InvoicePayment
  | selectPayments _ _ => List InvoicePayment
  | countInvoices _ _ => ℕ
  | selectInvoices _ _ _ _ => List Invoice
  | flush _ => Unit
  | commit _ => Unit
  | refreshInvoice _ => Invoice
  | refreshPayment _ => InvoicePayment

/-- The rows of an invoice listing. -/
def listed (orgId : String) (statuses : Option (List String)) (db : Db) : List Invoice :=
  db.invoices.rows.filter fun i =>
    i.orgId == orgId && !i.isDeleted && match statuses with
      | none => true
      | some [] => true
      | some values => values.contains i.status.value

/-- `Session.refresh`. -/
def refreshed {α : Type} : Option α → Except PyErr α
  | some a => .ok a
  | none => .error ⟨.exception "InvalidRequestError", "Could not refresh instance"⟩

/-- The reply to a call and the state it leaves. -/
def Call.answer (c : Call) (x : Choice) (w : World) : Except PyErr c.Resp × World :=
  let read {α : Type} (r : Except PyErr α) : Except PyErr α × World :=
    x.fate.settle (r.map fun a => (a, w)) w
  match c with
  | .core c =>
    let r := c.answer x.toChoice w.core
    (r.1, { w with core := r.2 })
  | .today => (.ok x.today, w)
  | .buildPdf _ => read (.ok x.document)
  | .selectInvoice orgId invoiceId => read (scalarOneOrNone (w.db.invoices.rows.filter fun i =>
      i.orgId == orgId && i.id == invoiceId && !i.isDeleted))
  | .selectLineItems orgId invoiceId =>
    read (.ok (orderBy (·.createdAt) (·.id) x.tie (w.db.lineItems.rows.filter fun i =>
      i.orgId == orgId && i.invoiceId == invoiceId)))
  | .selectPaymentByKey orgId idempotencyKey =>
    read (scalarOneOrNone (w.db.payments.rows.filter fun p =>
      p.orgId == orgId && p.idempotencyKey == some idempotencyKey))
  | .selectPayments orgId invoiceId =>
    read (.ok (orderBy (·.recordedAt) (·.id) x.tie (w.db.payments.rows.filter fun p =>
      p.orgId == orgId && p.invoiceId == invoiceId)))
  | .countInvoices orgId statuses => read (.ok (listed orgId statuses w.db).length)
  | .selectInvoices orgId statuses skip limit =>
    read (.ok (((orderBy (·.createdAt) (·.id) x.tie (listed orgId statuses w.db)).reverse.drop
      skip).take limit))
  | .flush writes => read (((w.db.apply x.now writes).mapError violationErr).map fun _ => ())
  | .commit writes =>
    x.fate.settle (((w.db.apply x.now writes).mapError violationErr).map fun db =>
      ((), { w with db := db })) w
  | .refreshInvoice id => read (refreshed (w.db.invoice id))
  | .refreshPayment id => read (refreshed (w.db.payments.rows.find? fun p => p.id == id))

/-- A call that goes through. -/
def Choice.calm (token : String) : Choice where
  toChoice := .calm token
  today := ⟨2026, 1, 1⟩
  tie _ := 0
  document := []

/-- A schedule of calls that all go through, by whose turn it is. -/
def calmly (turns : List ℕ) : List (ℕ × Choice) :=
  turns.zipIdx.map fun t => (t.1, .calm ("t" ++ toString t.2))

/-- A schedule whose call `n` fails without effect. -/
def failAt (n : ℕ) (e : PyErr) (schedule : List (ℕ × Choice)) : List (ℕ × Choice) :=
  schedule.modify n fun m => (m.1, { m.2 with fate := .lost e })

/-! ### The calls as programs -/

/-- A program of the service. -/
abbrev Prog := Proc Call Call.Resp PyErr

/-- One call. -/
def run (c : Call) : Prog c.Resp := Proc.perform c

/-- `raise cls(text)`. -/
def fail {α : Type} (cls : ErrClass) (text : String) : Prog α := .raise ⟨cls, text⟩

/-- A program of Core, run from the service. -/
def core {α : Type} (p : Core.Prog α) : Prog α := p.embed Call.core fun _ r => r

theorem core_bind {α β : Type} (p : Core.Prog α) (f : α → Core.Prog β) :
    core (p.bind f) = (core p).bind fun a => core (f a) :=
  Proc.embed_bind Call.core _ p f

theorem core_handle {α : Type} (p : Core.Prog α) (h : PyErr → Core.Prog α) :
    core (p.handle h) = (core p).handle fun e => core (h e) :=
  Proc.embed_handle Call.core _ p h

theorem core_run (c : Core.Call) : core (Core.run c) = run (.core c) := by
  refine congrArg (Proc.call (Call.core c)) (funext fun r => ?_)
  cases r <;> rfl

end A2ZCore.Invoicing
