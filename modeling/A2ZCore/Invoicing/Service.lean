import A2ZCore.Core.Email
import A2ZCore.Invoicing.Session

/-!
# The invoicing service

`service.py` and the access checks it opens with, function by function, as programs over the
session's calls. A request body is a structure that carries the bounds its schema checks.

## Main definitions

* `createInvoice`, `updateInvoice`, `softDeleteInvoice`, `sendInvoice`, `recordPayment`,
  `voidInvoice` — the mutations
* `getInvoice`, `listInvoices`, `listPayments` — the reads
-/

namespace A2ZCore.Invoicing

open Interaction
open A2ZCore.Core (Membership Role OrgSettings EmailResult)

/-! ### Request bodies -/

/-- `schemas.LineItemCreate`. -/
structure LineItemCreate where
  description : String
  quantity : Decimal
  unitPriceCents : ℕ
  quantity_pos : 0 < quantity.coeff

/-- `schemas.InvoiceCreateRequest`. -/
structure InvoiceCreateRequest where
  customerEmail : String
  customerName : String
  customerCompany : Option String
  invoiceDate : Date
  dueDate : Option Date
  paymentTerms : Option String
  lineItems : List LineItemCreate
  taxCents : ℕ
  discountCents : ℕ
  notes : Option String
  lineItems_ne_nil : lineItems ≠ []

/-- `schemas.InvoiceUpdateRequest`. -/
structure InvoiceUpdateRequest where
  customerEmail : Option String
  customerName : Option String
  customerCompany : Option String
  invoiceDate : Option Date
  dueDate : Option Date
  paymentTerms : Option String
  lineItems : Option (List LineItemCreate)
  taxCents : Option ℕ
  discountCents : Option ℕ
  notes : Option String

/-- `schemas.RecordPaymentRequest`. -/
structure RecordPaymentRequest where
  amountCents : ℤ
  paymentDate : Date
  paymentMethod : String
  reference : Option String
  notes : Option String
  idempotencyKey : Option String
  amountCents_pos : 0 < amountCents

/-! ### `access.py` -/

/-- `access.require_membership`. -/
def requireMembership (userId orgId : String) : Prog Membership := do
  match ← core (Core.getMembership userId orgId) with
  | none => fail .notFoundError "Not a member of this org"
  | some membership => return membership

/-- `access.MUTATION_ROLES`. -/
def mutationRoles : List Role := [.owner, .admin]

/-- `access.require_mutation_role`. -/
def requireMutationRole (userId orgId : String) : Prog Membership := do
  let membership ← requireMembership userId orgId
  if membership.role ∈ mutationRoles then return membership
  else fail .invoiceForbiddenError "Requires owner or admin role"

/-! ### Loading -/

/-- `_load_invoice`. -/
def loadInvoice (orgId invoiceId : String) : Prog Invoice := do
  match ← run (.selectInvoice orgId invoiceId) with
  | none => fail .invoiceNotFoundError ("No invoice " ++ pyRepr invoiceId ++ " in this org")
  | some invoice => return invoice

/-- `_load_line_items`. -/
def loadLineItems (orgId invoiceId : String) : Prog (List InvoiceLineItem) :=
  run (.selectLineItems orgId invoiceId)

/-- `_build_line_items`. The identifiers and the time are set when the items are flushed. -/
def buildLineItems (orgId : String) :
    List LineItemCreate → Except PyErr (List InvoiceLineItem)
  | [] => .ok []
  | item :: items => do
    let amountCents ← computeLineAmountCents item.quantity item.unitPriceCents
    let rest ← buildLineItems orgId items
    return { id := "", orgId, invoiceId := "", description := item.description,
             quantity := item.quantity, unitPriceCents := item.unitPriceCents, amountCents,
             createdAt := ⟨⟨1, 1, 1⟩, 0, 0, 0, 0⟩ } :: rest

/-- `item.invoice_id = invoice_id; session.add(item)`, and the identifiers the flush generates. -/
def addLineItems (invoiceId : String) : List InvoiceLineItem → Prog (List InvoiceLineItem)
  | [] => return []
  | item :: items => do
    let id ← core (Core.run .uuid4)
    let rest ← addLineItems invoiceId items
    return { item with id := id, invoiceId := invoiceId } :: rest

/-! ### Mutations -/

/-- The number of an invoice, from the counter's value. -/
def formatNumber (year : ℕ) (n : ℤ) : String :=
  "INV-" ++ toString year ++ "-" ++
    (if n < 0 then "-" ++ zeroPad 5 n.natAbs else zeroPad 6 n.natAbs)

/-- `create_invoice`. -/
def createInvoice (orgId userId : String) (body : InvoiceCreateRequest) :
    Prog (Invoice × List InvoiceLineItem) := do
  let _ ← requireMutationRole userId orgId
  let orgSettings ← core (Core.getOrgSettings orgId)
  let rawNumber ← core (Core.getNextInvoiceNumber orgId "")
  let today ← run .today
  let number ← Proc.ofExcept (parseInt rawNumber)
  let built ← Proc.ofExcept (buildLineItems orgId body.lineItems)
  let (subtotalCents, totalCents) ← Proc.ofExcept
    (computeTotals (built.map (·.amountCents)) body.taxCents body.discountCents)
  let id ← core (Core.run .uuid4)
  let invoice : Invoice :=
    { id, orgId, invoiceNumber := formatNumber (Date.year today) number, status := .draft,
      customerEmail := body.customerEmail, customerName := body.customerName,
      customerCompany := body.customerCompany, invoiceDate := body.invoiceDate,
      dueDate := body.dueDate, paymentTerms := body.paymentTerms, subtotalCents,
      taxCents := body.taxCents, discountCents := body.discountCents, totalCents,
      amountPaidCents := 0, paymentStatus := .unpaid, currencyCode := orgSettings.currency,
      notes := body.notes, pdfS3Key := none, isDeleted := false, createdBy := userId,
      createdAt := ⟨⟨1, 1, 1⟩, 0, 0, 0, 0⟩ }
  run (.flush [.insertInvoice invoice])
  let lineItems ← addLineItems id built
  run (.commit (.insertInvoice invoice :: lineItems.map .insertLineItem))
  let invoice ← run (.refreshInvoice id)
  let _ ← core (Core.logAudit orgId userId "invoice.created" "invoice" id
    (.obj [("invoice_number", .str (formatNumber (Date.year today) number)),
      ("total_cents", .int totalCents)]))
  return (invoice, lineItems)

/-- A column that a `PATCH` body sets. -/
def setField {α : Type} (value : Option α) (old : α) : α := value.getD old

/-- The attributes `update_invoice` sets before it looks at the line items. -/
def withFields (body : InvoiceUpdateRequest) (invoice : Invoice) : Invoice :=
  { invoice with
    customerEmail := setField body.customerEmail invoice.customerEmail
    customerName := setField body.customerName invoice.customerName
    customerCompany := setField (body.customerCompany.map some) invoice.customerCompany
    invoiceDate := setField body.invoiceDate invoice.invoiceDate
    dueDate := setField (body.dueDate.map some) invoice.dueDate
    paymentTerms := setField (body.paymentTerms.map some) invoice.paymentTerms
    notes := setField (body.notes.map some) invoice.notes
    taxCents := setField (body.taxCents.map Nat.cast) invoice.taxCents
    discountCents := setField (body.discountCents.map Nat.cast) invoice.discountCents }

/-- The `changes` that are audited. -/
def updateChanges (body : InvoiceUpdateRequest) : List (String × Json) :=
  let entry {α : Type} (field : String) (json : α → Json) (value : Option α) :=
    value.toList.map fun v => (field, json v)
  List.flatten [entry "customer_email" .str body.customerEmail,
    entry "customer_name" .str body.customerName,
    entry "customer_company" .str body.customerCompany,
    entry "invoice_date" (fun d => .str d.isoformat) body.invoiceDate,
    entry "due_date" (fun d => .str d.isoformat) body.dueDate,
    entry "payment_terms" .str body.paymentTerms, entry "notes" .str body.notes,
    entry "tax_cents" (fun n => .int n) body.taxCents,
    entry "discount_cents" (fun n => .int n) body.discountCents,
    entry "line_items" (fun _ => .str "replaced") body.lineItems]

/-- `recompute` is set. -/
def recomputes (body : InvoiceUpdateRequest) : Bool :=
  body.taxCents.isSome || body.discountCents.isSome || body.lineItems.isSome

/-- The attributes that follow from a new sum of payments or a new total. -/
def withStatuses (invoice : Invoice) : Invoice :=
  let paymentStatus := nextPaymentStatus invoice.amountPaidCents invoice.totalCents
  { invoice with
    paymentStatus := paymentStatus
    status := nextInvoiceStatus invoice.status paymentStatus }

/-- The recomputation of `update_invoice`. -/
def withTotals (invoice : Invoice) (lineItems : List InvoiceLineItem) : Except PyErr Invoice := do
  let (subtotalCents, totalCents) ←
    computeTotals (lineItems.map (·.amountCents)) invoice.taxCents invoice.discountCents
  return withStatuses { invoice with subtotalCents := subtotalCents, totalCents := totalCents }

/-- The replacement of the line items by `update_invoice`: the new ones, and the pending writes.
`update` is the pending update of the invoice itself. -/
def replaceLineItems (orgId invoiceId : String) (update : Write) (items : List LineItemCreate)
    (old : List InvoiceLineItem) : Prog (List InvoiceLineItem × List Write) := do
  let deletes := old.map fun item => Write.deleteLineItem item.id
  run (.flush (update :: deletes))
  let built ← Proc.ofExcept (buildLineItems orgId items)
  let added ← addLineItems invoiceId built
  run (.flush (update :: (deletes ++ added.map .insertLineItem)))
  return (added, deletes ++ added.map .insertLineItem)

/-- The line items after an update, and the pending writes. -/
def editLineItems (orgId invoiceId : String) (update : Write) (body : InvoiceUpdateRequest)
    (old : List InvoiceLineItem) : Prog (List InvoiceLineItem × List Write) :=
  match body.lineItems with
  | none => return (old, [])
  | some items => replaceLineItems orgId invoiceId update items old

/-- The recomputation, where there is one. -/
def recompute (body : InvoiceUpdateRequest) (invoice : Invoice)
    (lineItems : List InvoiceLineItem) : Except PyErr Invoice :=
  if recomputes body then withTotals invoice lineItems else .ok invoice

/-- `if changes: await log_audit(…)`. -/
def auditChanges (orgId userId invoiceId : String) (body : InvoiceUpdateRequest) : Prog Unit := do
  if updateChanges body ≠ [] then
    let _ ← core (Core.logAudit orgId userId "invoice.updated" "invoice" invoiceId
      (.obj (updateChanges body)))

/-- `update_invoice`. Selecting the line items first flushes the attributes set so far. -/
def updateInvoice (orgId invoiceId userId : String) (body : InvoiceUpdateRequest) :
    Prog (Invoice × List InvoiceLineItem) := do
  let _ ← requireMutationRole userId orgId
  let loaded ← loadInvoice orgId invoiceId
  Proc.ofExcept (assertCanEdit loaded.status)
  let invoice := withFields body loaded
  run (.flush [.updateInvoice loaded invoice])
  let old ← loadLineItems orgId invoiceId
  let (lineItems, writes) ← editLineItems orgId invoiceId (.updateInvoice loaded invoice) body old
  let invoice ← Proc.ofExcept (recompute body invoice lineItems)
  run (.commit (.updateInvoice loaded invoice :: writes))
  let invoice ← run (.refreshInvoice invoiceId)
  auditChanges orgId userId invoiceId body
  return (invoice, lineItems)

/-- `soft_delete_invoice`. -/
def softDeleteInvoice (orgId invoiceId userId : String) : Prog Unit := do
  let _ ← requireMutationRole userId orgId
  let loaded ← loadInvoice orgId invoiceId
  run (.commit [.updateInvoice loaded { loaded with isDeleted := true }])
  let _ ← core (Core.logAudit orgId userId "invoice.deleted" "invoice" invoiceId (.obj []))

/-- `send_invoice`. -/
def sendInvoice (orgId invoiceId userId recipientEmail : String) :
    Prog (Invoice × EmailResult) := do
  let _ ← requireMutationRole userId orgId
  let loaded ← loadInvoice orgId invoiceId
  Proc.ofExcept (assertCanSend loaded.status)
  let lineItems ← loadLineItems orgId invoiceId
  let orgSettings ← core (Core.getOrgSettings orgId)
  let pdfBytes ← run (.buildPdf (invoiceElements loaded lineItems orgSettings))
  let filename := loaded.invoiceNumber ++ ".pdf"
  let stored ← core (Core.uploadFile orgId "invoicing" filename pdfBytes "application/pdf" userId)
  let emailResult ← core (Core.sendEmail orgId "invoicing" recipientEmail
    ("Invoice " ++ loaded.invoiceNumber) (renderInvoiceEmailHtml loaded orgSettings)
    (some (renderInvoiceEmailText loaded)) [⟨pdfBytes, filename, "application/pdf"⟩] none
    (.obj [("invoice_id", .str invoiceId), ("invoice_number", .str loaded.invoiceNumber)]))
  run (.commit
    [.updateInvoice loaded { loaded with status := .sent, pdfS3Key := some stored.key }])
  let invoice ← run (.refreshInvoice invoiceId)
  let _ ← core (Core.logAudit orgId userId "invoice.sent" "invoice" invoiceId
    (.obj [("recipient_email", .str recipientEmail)]))
  return (invoice, emailResult)

/-- The lookup of a replayed payment. An absent key and an empty one are not looked up. -/
def findReplayed (orgId : String) (idempotencyKey : Option String) :
    Prog (Option InvoicePayment) :=
  match truthy idempotencyKey with
  | none => return none
  | some key => run (.selectPaymentByKey orgId key)

/-- The attributes `record_payment` sets. -/
def withPayment (invoice : Invoice) (amountCents : ℤ) : Invoice :=
  withStatuses { invoice with amountPaidCents := invoice.amountPaidCents + amountCents }

/-- The payment `record_payment` adds. -/
def newPayment (id orgId invoiceId userId : String) (body : RecordPaymentRequest) :
    InvoicePayment :=
  { id, orgId, invoiceId, amountCents := body.amountCents, paymentDate := body.paymentDate,
    paymentMethod := body.paymentMethod, reference := body.reference, notes := body.notes,
    idempotencyKey := body.idempotencyKey, recordedBy := userId,
    recordedAt := ⟨⟨1, 1, 1⟩, 0, 0, 0, 0⟩ }

/-- `record_payment`. -/
def recordPayment (orgId invoiceId userId : String) (body : RecordPaymentRequest) :
    Prog (Invoice × InvoicePayment) := do
  let _ ← requireMutationRole userId orgId
  let loaded ← loadInvoice orgId invoiceId
  Proc.ofExcept (assertCanRecordPayment loaded.status)
  match ← findReplayed orgId body.idempotencyKey with
  | some existing => return (loaded, existing)
  | none => do
    let id ← core (Core.run .uuid4)
    run (.commit [.updateInvoice loaded (withPayment loaded body.amountCents),
      .insertPayment (newPayment id orgId invoiceId userId body)])
    let invoice ← run (.refreshInvoice invoiceId)
    let payment ← run (.refreshPayment id)
    let _ ← core (Core.logAudit orgId userId "invoice.payment_recorded" "invoice" invoiceId
      (.obj [("amount_cents", .int body.amountCents),
        ("payment_method", .str body.paymentMethod)]))
    return (invoice, payment)

/-- `void_invoice`. -/
def voidInvoice (orgId invoiceId userId reason : String) : Prog Invoice := do
  let _ ← requireMutationRole userId orgId
  let loaded ← loadInvoice orgId invoiceId
  Proc.ofExcept (assertCanVoid loaded.status)
  run (.commit [.updateInvoice loaded { loaded with status := .void }])
  let invoice ← run (.refreshInvoice invoiceId)
  let _ ← core (Core.logAudit orgId userId "invoice.voided" "invoice" invoiceId
    (.obj [("reason", .str reason)]))
  return invoice

/-! ### Reads -/

/-- `get_invoice`. -/
def getInvoice (orgId userId invoiceId : String) : Prog (Invoice × List InvoiceLineItem) := do
  let _ ← requireMembership userId orgId
  let invoice ← loadInvoice orgId invoiceId
  let lineItems ← loadLineItems orgId invoiceId
  return (invoice, lineItems)

/-- `list_invoices`. -/
def listInvoices (orgId userId : String) (statuses : Option (List String)) (skip limit : ℕ) :
    Prog (List (Invoice × List InvoiceLineItem) × ℕ) := do
  let _ ← requireMembership userId orgId
  let total ← run (.countInvoices orgId statuses)
  let invoices ← run (.selectInvoices orgId statuses skip limit)
  let results ← Proc.forEach invoices [] fun results invoice => do
    let items ← loadLineItems orgId (Invoice.id invoice)
    return results ++ [(invoice, items)]
  return (results, total)

/-- `list_payments`. -/
def listPayments (orgId userId invoiceId : String) : Prog (List InvoicePayment) := do
  let _ ← requireMembership userId orgId
  let _ ← loadInvoice orgId invoiceId
  run (.selectPayments orgId invoiceId)

end A2ZCore.Invoicing
