import A2ZCore.Invoicing.Money
import A2ZCore.Lib.Table
import Mathlib

/-!
# Invoicing's tables and lifecycle

The three tables of the `invoicing` schema with their constraints, and the lifecycle functions of
`state_machine.py`. The status columns are `TEXT`, but every statement that writes them writes a
value of the two enumerations, so they are these here.

## Main definitions

* `Invoice`, `InvoiceLineItem`, `InvoicePayment` — the rows
* `Db` — the three tables
* `nextPaymentStatus`, `nextInvoiceStatus`, `computeTotals`, `assertCan…` — the state machine
-/

namespace A2ZCore.Invoicing

open Relational

/-- `models.InvoiceStatus`. -/
inductive InvoiceStatus where
  | draft
  | sent
  | partiallyPaid
  | paid
  | void
  deriving DecidableEq, Repr

/-- The value of an `InvoiceStatus`. -/
def InvoiceStatus.value : InvoiceStatus → String
  | draft => "draft"
  | sent => "sent"
  | partiallyPaid => "partially_paid"
  | paid => "paid"
  | void => "void"

/-- `models.PaymentStatus`. -/
inductive PaymentStatus where
  | unpaid
  | partiallyPaid
  | paid
  deriving DecidableEq, Repr

/-! ### Rows -/

/-- A row of `invoices`, without the time of its last update. -/
structure Invoice where
  id : String
  orgId : String
  invoiceNumber : String
  status : InvoiceStatus
  customerEmail : String
  customerName : String
  customerCompany : Option String
  invoiceDate : Date
  dueDate : Option Date
  paymentTerms : Option String
  subtotalCents : ℤ
  taxCents : ℤ
  discountCents : ℤ
  totalCents : ℤ
  amountPaidCents : ℤ
  paymentStatus : PaymentStatus
  currencyCode : String
  notes : Option String
  pdfS3Key : Option String
  isDeleted : Bool
  createdBy : String
  createdAt : DateTime
  deriving DecidableEq, Repr

/-- A row of `invoice_line_items`. -/
structure InvoiceLineItem where
  id : String
  orgId : String
  invoiceId : String
  description : String
  quantity : Decimal
  unitPriceCents : ℤ
  amountCents : ℤ
  createdAt : DateTime
  deriving DecidableEq, Repr

/-- A row of `invoice_payments`. -/
structure InvoicePayment where
  id : String
  orgId : String
  invoiceId : String
  amountCents : ℤ
  paymentDate : Date
  paymentMethod : String
  reference : Option String
  notes : Option String
  idempotencyKey : Option String
  recordedBy : String
  recordedAt : DateTime
  deriving DecidableEq, Repr

/-! ### Constraints -/

/-- The range of a `BIGINT` column. -/
def isBigInt (n : ℤ) : Bool := -2 ^ 63 ≤ n && n < 2 ^ 63

/-- `invoices`: the primary key, and `uq_invoice_number`. -/
def invoiceSchema : Schema Invoice where
  valid i := isBigInt i.subtotalCents && isBigInt i.taxCents && isBigInt i.discountCents &&
    isBigInt i.totalCents && isBigInt i.amountPaidCents
  clash i j := i.id == j.id || (i.orgId == j.orgId && i.invoiceNumber == j.invoiceNumber)
  clash_symm i j := by simp only [Bool.beq_comm]

/-- `invoice_line_items`: the primary key, and the precision of `NUMERIC(12, 3)`. -/
def lineItemSchema : Schema InvoiceLineItem where
  valid i := isBigInt i.unitPriceCents && isBigInt i.amountCents && i.quantity.atScale 3 < 10 ^ 12
  clash i j := i.id == j.id
  clash_symm i j := by simp only [Bool.beq_comm]

/-- `invoice_payments`: the primary key, and `uq_payments_org_idempotency_key`, which does not
cover the rows without a key. -/
def paymentSchema : Schema InvoicePayment where
  valid p := isBigInt p.amountCents
  clash p q := p.id == q.id ||
    (p.orgId == q.orgId && p.idempotencyKey.isSome && p.idempotencyKey == q.idempotencyKey)
  clash_symm p q := by
    rw [Bool.eq_iff_iff]
    simp only [Bool.or_eq_true, Bool.and_eq_true, beq_iff_eq]
    constructor
    · rintro (h | ⟨⟨h, hs⟩, hk⟩)
      · exact .inl h.symm
      · exact .inr ⟨⟨h.symm, hk ▸ hs⟩, hk.symm⟩
    · rintro (h | ⟨⟨h, hs⟩, hk⟩)
      · exact .inl h.symm
      · exact .inr ⟨⟨h.symm, hk ▸ hs⟩, hk.symm⟩

/-- The `invoicing` schema. -/
structure Db where
  invoices : Table invoiceSchema
  lineItems : Table lineItemSchema
  payments : Table paymentSchema

namespace Db

/-- No rows. -/
def empty : Db := ⟨Table.empty _, Table.empty _, Table.empty _⟩

/-- The invoice with an id. -/
def invoice (db : Db) (id : String) : Option Invoice := db.invoices.rows.find? fun i => i.id == id

/-- The line items of an invoice. -/
def itemsOf (db : Db) (id : String) : List InvoiceLineItem :=
  db.lineItems.rows.filter fun i => i.invoiceId == id

/-- The payments of an invoice. -/
def paymentsOf (db : Db) (id : String) : List InvoicePayment :=
  db.payments.rows.filter fun p => p.invoiceId == id

/-- The sum of the payments of an invoice. -/
def paidCents (db : Db) (id : String) : ℤ := ((db.paymentsOf id).map (·.amountCents)).sum

end Db

/-! ### `state_machine.py` -/

/-- `assert_can_edit`. -/
def assertCanEdit (status : InvoiceStatus) : Except PyErr Unit :=
  if status = .void then .error ⟨.invalidStateTransitionError, "Cannot edit a voided invoice"⟩
  else .ok ()

/-- `assert_can_send`. -/
def assertCanSend (status : InvoiceStatus) : Except PyErr Unit :=
  if status ≠ .draft then
    .error ⟨.invalidStateTransitionError, "Cannot send invoice in status " ++
      pyRepr status.value ++ "; only draft invoices can be sent"⟩
  else .ok ()

/-- `_PAYABLE_STATUSES`, and `_PAID_TRACK_STATUSES`. -/
def InvoiceStatus.isPayable : InvoiceStatus → Bool
  | .sent | .partiallyPaid | .paid => true
  | .draft | .void => false

/-- `assert_can_record_payment`. -/
def assertCanRecordPayment (status : InvoiceStatus) : Except PyErr Unit :=
  if ¬status.isPayable then
    .error ⟨.invalidStateTransitionError, "Cannot record a payment on an invoice in status " ++
      pyRepr status.value⟩
  else .ok ()

/-- `assert_can_void`. -/
def assertCanVoid (status : InvoiceStatus) : Except PyErr Unit :=
  if status = .void then .error ⟨.invalidStateTransitionError, "Invoice is already void"⟩
  else .ok ()

/-- `next_payment_status`. -/
def nextPaymentStatus (amountPaidCents totalCents : ℤ) : PaymentStatus :=
  if amountPaidCents ≤ 0 then .unpaid
  else if totalCents ≤ amountPaidCents then .paid
  else .partiallyPaid

/-- `next_invoice_status`. -/
def nextInvoiceStatus (currentStatus : InvoiceStatus) (paymentStatus : PaymentStatus) :
    InvoiceStatus :=
  if ¬currentStatus.isPayable then currentStatus
  else match paymentStatus with
    | .paid => .paid
    | .partiallyPaid => .partiallyPaid
    | .unpaid => .sent

/-- `compute_totals`. -/
def computeTotals (lineAmountsCents : List ℤ) (taxCents discountCents : ℤ) :
    Except PyErr (ℤ × ℤ) :=
  let subtotalCents := lineAmountsCents.sum
  let totalCents := subtotalCents + taxCents - discountCents
  if totalCents < 0 then
    .error ⟨.invoiceValidationError, "discount_cents exceeds subtotal + tax"⟩
  else .ok (subtotalCents, totalCents)

end A2ZCore.Invoicing
