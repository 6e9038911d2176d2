import A2ZCore.Core.Services
import A2ZCore.Invoicing.Models

/-!
# The invoice document and its email

What `pdf.py` hands to the document builder, and the two email bodies of `email_templates.py`. The
builder itself, which turns the list of elements into bytes, is not part of the repository.

## Main definitions

* `Flowable`, `invoiceElements` — the elements of the document
* `renderInvoiceEmailHtml`, `renderInvoiceEmailText` — the bodies
-/

namespace A2ZCore.Invoicing

open A2ZCore.Core (OrgSettings)

/-- A named style of the sample style sheet; the title is a left-aligned copy of `Title`. -/
inductive ParagraphStyle where
  | title
  | heading2
  | heading4
  | normal
  deriving DecidableEq, Repr

/-- An element of the document. -/
inductive Flowable where
  | paragraph (text : String) (style : ParagraphStyle)
  | spacer (height : ℕ)
  /-- The table of line items, a header row first. -/
  | itemsTable (rows : List (List String))
  | totalsTable (rows : List (List String))
  deriving DecidableEq, Repr

/-- A value that is truthy. -/
def truthy (s : Option String) : Option String :=
  s.filter fun t => t != ""

/-- The name an org's invoices go out under. -/
def senderName (invoice : Invoice) (orgSettings : OrgSettings) : String :=
  if orgSettings.senderName = "" then invoice.orgId else orgSettings.senderName

/-- The elements `render_invoice_pdf` builds the document from. -/
def invoiceElements (invoice : Invoice) (lineItems : List InvoiceLineItem)
    (orgSettings : OrgSettings) : List Flowable :=
  let cents (n : ℤ) := money n invoice.currencyCode
  let billTo := [invoice.customerName] ++ (truthy invoice.customerCompany).toList ++
    [invoice.customerEmail]
  let itemRow (item : InvoiceLineItem) : List String :=
    [item.description, item.quantity.toPyString, cents item.unitPriceCents, cents item.amountCents]
  let notes : List Flowable := match truthy invoice.notes with
    | none => []
    | some text => [.spacer 20, .paragraph "Notes" .heading4, .paragraph text .normal]
  List.flatten [
    [.paragraph (senderName invoice orgSettings) .title,
      .paragraph ("Invoice " ++ invoice.invoiceNumber) .heading2, .spacer 12,
      .paragraph ("Invoice date: " ++ invoice.invoiceDate.isoformat) .normal],
    invoice.dueDate.toList.map fun d => .paragraph ("Due date: " ++ d.isoformat) .normal,
    (truthy invoice.paymentTerms).toList.map fun t => .paragraph ("Terms: " ++ t) .normal,
    [.spacer 12, .paragraph "Bill to:" .heading4],
    billTo.map fun line => .paragraph line .normal,
    [.spacer 16,
      .itemsTable (["Description", "Qty", "Unit price", "Amount"] :: lineItems.map itemRow),
      .spacer 16,
      .totalsTable [["Subtotal", cents invoice.subtotalCents], ["Tax", cents invoice.taxCents],
        ["Discount", "-" ++ cents invoice.discountCents], ["Total", cents invoice.totalCents]]],
    notes]

/-- `render_invoice_email_html`. -/
def renderInvoiceEmailHtml (invoice : Invoice) (orgSettings : OrgSettings) : String :=
  let due := match invoice.dueDate with
    | none => ""
    | some d => "<p>Due date: " ++ d.isoformat ++ "</p>"
  "<p>Hi " ++ invoice.customerName ++ ",</p><p>" ++ senderName invoice orgSettings ++
    " has sent you invoice <strong>" ++ invoice.invoiceNumber ++ "</strong> for <strong>" ++
    money invoice.totalCents invoice.currencyCode ++ "</strong>.</p>" ++ due ++
    "<p>The invoice PDF is attached to this email.</p><p>Thank you for your business.</p>"

/-- `render_invoice_email_text`. -/
def renderInvoiceEmailText (invoice : Invoice) : String :=
  let due := match invoice.dueDate with
    | none => ""
    | some d => "\nDue date: " ++ d.isoformat
  "Hi " ++ invoice.customerName ++ ",\n\nInvoice " ++ invoice.invoiceNumber ++ " for " ++
    money invoice.totalCents invoice.currencyCode ++ " is attached to this email." ++ due ++
    "\n\nThank you for your business."

end A2ZCore.Invoicing
