import A2ZCore.Invoicing.Reads
import A2ZCore.Lib.Paging

/-!
# Walking through a listing of invoices

`list_invoices` sorts by the time of creation, newest first, and takes a page by offset. Invoices of
one time come in an order that each query may choose anew. So an invoice that stands at the end of one
page may stand at the beginning of the next one again, and the invoice whose place it takes is on
neither.

## Main definitions

* `pageCount` — how many pages the reported total takes
* `Partitions` — whatever the queries choose, the pages are the invoices, each once

## Main results

* `partitions_iff` — the pages partition the listing exactly when no boundary between two pages falls
  among invoices of one time
-/

namespace A2ZCore.Invoicing

open Interaction Interaction.Proc Paging

/-! ### The listing -/

/-- What invoices are sorted by. -/
def createdOrdinal (invoice : Invoice) : ℕ := invoice.createdAt.ordinal

/-- The order a query of a listing may reply in. -/
theorem listing_orderBy (tie : String → ℕ) (rows : List Invoice) :
    Paging.Listing createdOrdinal rows
      (orderBy (·.createdAt) (·.id) tie rows).reverse where
  perm := (List.reverse_perm _).trans (perm_orderBy _ _ tie rows)
  sorted := List.pairwise_reverse.mpr (sorted_orderBy _ _ tie rows)

/-- Every such order is one that a query may reply in. -/
theorem exists_tie_of_listing {rows order : List Invoice}
    (h : Paging.Listing createdOrdinal rows order) (hid : (rows.map (·.id)).Nodup) :
    ∃ tie, (orderBy (·.createdAt) (·.id) tie rows).reverse = order := by
  have hreverse : order.reverse.Perm rows := (List.reverse_perm order).trans h.perm
  have hsorted : order.reverse.Pairwise fun a b => createdOrdinal a ≤ createdOrdinal b :=
    List.pairwise_reverse.mpr h.sorted
  have hnodup : (order.reverse.map (·.id)).Nodup := (hreverse.map (·.id)).nodup_iff.mpr hid
  obtain ⟨tie, htie⟩ := exists_tie Invoice.createdAt Invoice.id hsorted hnodup
  exact ⟨tie, by rw [htie rows hreverse.symm, List.reverse_reverse]⟩

/-- The listed invoices are rows of a table. -/
theorem nodup_listed (orgId : String) (statuses : Option (List String)) (db : Db) :
    ((listed orgId statuses db).map (·.id)).Nodup := by
  have hunique : (listed orgId statuses db).Pairwise fun i j => invoiceSchema.clash i j = false :=
    db.invoices.unique.sublist List.filter_sublist
  rw [List.nodup_iff_pairwise_ne, List.pairwise_map]
  refine hunique.imp fun hclash hid => ?_
  simp [invoiceSchema, hid] at hclash

/-! ### The walk -/

/-- How many pages the reported total takes. The first one is read in any case. -/
def pageCount (total limit : ℕ) : ℕ := max 1 ((total + limit - 1) / limit)

theorem le_pageCount_mul (total : ℕ) {limit : ℕ} (hlimit : 0 < limit) :
    total ≤ pageCount total limit * limit := by
  have hdiv := Nat.div_add_mod (total + limit - 1) limit
  have hmod := Nat.mod_lt (total + limit - 1) hlimit
  have hle : (total + limit - 1) / limit * limit ≤ pageCount total limit * limit :=
    Nat.mul_le_mul_right limit (le_max_right _ _)
  rw [mul_comm] at hdiv
  omega

/-- A page that `list_invoices` may return, and the total it reports. -/
def Replies (db : Db) (orgId userId : String) (statuses : Option (List String)) (skip limit : ℕ)
    (page : List (Invoice × List InvoiceLineItem)) (total : ℕ) : Prop :=
  ∃ core w', Yields Call.answer (listInvoices orgId userId statuses skip limit) ⟨core, db⟩
    (page, total) w'

/-- Whatever is returned for the pages up to the reported total, together they are the matching
invoices, each once. -/
def Partitions (db : Db) (orgId userId : String) (statuses : Option (List String)) (limit : ℕ) :
    Prop :=
  ∀ (pages : ℕ → List (Invoice × List InvoiceLineItem)) (total : ℕ),
    (∀ k < pageCount total limit, Replies db orgId userId statuses (k * limit) limit (pages k) total) →
      (((List.range (pageCount total limit)).flatMap pages).map Prod.fst).Perm
        (listed orgId statuses db)

section Walks

variable {db : Db} {orgId userId : String} {statuses : Option (List String)} {limit : ℕ}

/-- The invoices of returned pages are the pages of listings. -/
theorem exists_orders {pages : ℕ → List (Invoice × List InvoiceLineItem)} {total m : ℕ}
    (h : ∀ k < m, Replies db orgId userId statuses (k * limit) limit (pages k) total) :
    ∃ orders : ℕ → List Invoice,
      (∀ k, Paging.Listing createdOrdinal (listed orgId statuses db) (orders k)) ∧
        ((List.range m).flatMap pages).map Prod.fst = walk limit orders m := by
  have hpage : ∀ k, ∃ order, Paging.Listing createdOrdinal (listed orgId statuses db) order ∧
      (k < m → (pages k).map Prod.fst = page limit order k) := by
    intro k
    by_cases hk : k < m
    · obtain ⟨core, w', hyields⟩ := h k hk
      obtain ⟨_, ⟨tie, htie⟩, _⟩ := listInvoices_inv hyields
      refine ⟨_, listing_orderBy tie (listed orgId statuses db), fun _ => ?_⟩
      rw [htie, invoicePage, page]
    · exact ⟨_, listing_orderBy (fun _ => 0) (listed orgId statuses db), fun hlt => absurd hlt hk⟩
  choose orders horders hfst using hpage
  refine ⟨orders, horders, ?_⟩
  rw [List.map_flatMap, walk]
  refine List.flatMap_congr fun k hk => ?_
  exact hfst k (List.mem_range.mp hk)

/-- The pages of listings may be returned. -/
theorem exists_replies {orders : ℕ → List Invoice}
    (h : ∀ k, Paging.Listing createdOrdinal (listed orgId statuses db) (orders k)) :
    ∃ pages : ℕ → List (Invoice × List InvoiceLineItem),
      (∀ k, Replies db orgId userId statuses (k * limit) limit (pages k)
        (listed orgId statuses db).length) ∧
        ∀ m, ((List.range m).flatMap pages).map Prod.fst = walk limit orders m := by
  have hpage : ∀ k, ∃ results, results.map Prod.fst = page limit (orders k) k ∧
      Replies db orgId userId statuses (k * limit) limit results
        (listed orgId statuses db).length := by
    intro k
    obtain ⟨tie, htie⟩ := exists_tie_of_listing (h k) (nodup_listed orgId statuses db)
    obtain ⟨results, hresults, hyields⟩ :=
      yields_listInvoices db orgId userId statuses (k * limit) limit tie
    refine ⟨results, ?_, .initial, _, hyields⟩
    rw [hresults, invoicePage, htie, page]
  choose pages hpages hreplies using hpage
  refine ⟨pages, hreplies, fun m => ?_⟩
  rw [List.map_flatMap, walk]
  exact List.flatMap_congr fun k _ => hpages k

theorem walk_perm_of_partitions
    (h : Partitions db orgId userId statuses limit) {orders : ℕ → List Invoice}
    (horders : ∀ k, Paging.Listing createdOrdinal (listed orgId statuses db) (orders k)) :
    (walk limit orders (pageCount (listed orgId statuses db).length limit)).Perm
      (listed orgId statuses db) := by
  obtain ⟨pages, hreplies, hwalk⟩ :=
    @exists_replies db orgId userId statuses limit orders horders
  have hperm := h pages _ fun k _ => hreplies k
  rwa [hwalk] at hperm

/-- **The pages partition the listing** exactly when no boundary between two pages falls among
invoices of one time. -/
theorem partitions_iff (hlimit : 0 < limit) :
    Partitions db orgId userId statuses limit ↔
      Aligned createdOrdinal limit (listed orgId statuses db) := by
  have horder := listing_orderBy (fun _ => 0) (listed orgId statuses db)
  have hnodup : (listed orgId statuses db).Nodup := (nodup_listed orgId statuses db).of_map _
  have hcount := le_pageCount_mul (listed orgId statuses db).length hlimit
  rw [← walk_perm_iff hlimit hcount hnodup horder]
  constructor
  · intro h orders horders
    exact walk_perm_of_partitions h horders
  · intro h pages total hreplies
    obtain ⟨core, w', hyields⟩ := hreplies 0 (by simp [pageCount])
    obtain ⟨rfl, _⟩ := listInvoices_inv hyields
    obtain ⟨orders, horders, hwalk⟩ := exists_orders hreplies
    rw [hwalk]
    exact h orders horders

end Walks

/-! ### Two invoices of one time -/

/-- An invoice of the org, created at noon. -/
def noonInvoice (id invoiceNumber : String) : Invoice where
  id := id
  orgId := "org"
  invoiceNumber := invoiceNumber
  status := .draft
  customerEmail := "ada@example.com"
  customerName := "Ada"
  customerCompany := none
  invoiceDate := ⟨2026, 1, 1⟩
  dueDate := none
  paymentTerms := none
  subtotalCents := 0
  taxCents := 0
  discountCents := 0
  totalCents := 0
  amountPaidCents := 0
  paymentStatus := .unpaid
  currencyCode := "USD"
  notes := none
  pdfS3Key := none
  isDeleted := false
  createdBy := "ada"
  createdAt := ⟨⟨2026, 1, 1⟩, 12, 0, 0, 0⟩

/-- Two of them. -/
def noonDb : Db :=
  { Db.empty with
    invoices :=
      ⟨[noonInvoice "a" "INV-2026-000001", noonInvoice "b" "INV-2026-000002"], by decide, by decide⟩ }

/-- On one page they are both returned, and once. -/
theorem partitions_noonDb : Partitions noonDb "org" "ada" none 2 :=
  (partitions_iff (by decide)).mpr (aligned_of_length_le (by decide))

/-- On two pages the first may be returned twice. -/
theorem not_partitions : ¬ ∀ (db : Db) (orgId userId : String) (statuses : Option (List String))
    (limit : ℕ), 0 < limit → Partitions db orgId userId statuses limit := by
  intro h
  have hwalk : ∀ orders, _ → _ := fun orders =>
    @walk_perm_of_partitions noonDb "org" "ada" none 1 (h noonDb "org" "ada" none 1 (by decide)) orders
  have hnodup : (listed "org" none noonDb).Nodup := by decide
  have haligned := (walk_perm_iff (by decide) (by decide) hnodup
    (listing_orderBy (fun _ => 0) _)).mp hwalk
  exact haligned 1 (createdOrdinal (noonInvoice "a" "INV-2026-000001")) (by decide)

end A2ZCore.Invoicing
