import A2ZCore.Core.OrgView
import A2ZCore.Invoicing.Invariants
import A2ZCore.Lib.Unwinding

/-!
# Each org as if it were alone

The invoices, line items and payments of all orgs are in the same three tables, and the statements
that look for them select by org. The others go by primary key: a refresh, and the `UPDATE` or `DELETE`
of a loaded row. They are sent only for rows that the service has selected by org or inserted itself. So
no statement of one org meets a row of another, the unique indexes do not let two orgs collide, and the
counter of invoice numbers is an org's own.

From this an org cannot tell, by any reply to any request, whether other orgs are served at all.

## Main definitions

* `Db.own` — an org's part of the tables
* `Call.Apart` — a call of the org that meets no row of another one
* `Sees` — what an org can tell two states apart by
* `ServiceCall`, `Demand` — the nine operations, and a request of an org for one

## Main results

* `Db.own_apply` — a transaction of the org is one on the org's part of the tables
* `unwinds` — the calls of the orgs do not interfere
* `isolated_program` — every operation makes calls that are apart
* `serveAll_isolated` — in any run an org is served as it would be alone
* `replies_without_others` — in a run from the first request on, an org does not notice the others
-/

namespace A2ZCore.Invoicing

open Interaction Interaction.Proc Interaction.Contract Relational
open A2ZCore.Core (OrgView EmailResult)

/-! ### An org's part of the tables -/

/-- The rows of an org. -/
def Db.own (orgId : String) (db : Db) : Db where
  invoices := db.invoices.restrict fun i => i.orgId == orgId
  lineItems := db.lineItems.restrict fun i => i.orgId == orgId
  payments := db.payments.restrict fun p => p.orgId == orgId

/-- No invoice of another org has the id. -/
def Db.ClearInvoice (orgId : String) (db : Db) (id : String) : Prop :=
  ∀ i ∈ db.invoices.rows, i.orgId ≠ orgId → i.id ≠ id

/-- No line item of another org has the id. -/
def Db.ClearItem (orgId : String) (db : Db) (id : String) : Prop :=
  ∀ i ∈ db.lineItems.rows, i.orgId ≠ orgId → i.id ≠ id

/-- No payment of another org has the id. -/
def Db.ClearPayment (orgId : String) (db : Db) (id : String) : Prop :=
  ∀ p ∈ db.payments.rows, p.orgId ≠ orgId → p.id ≠ id

/-- The other orgs have the rows they had. -/
def OthersKept (orgId : String) (db db' : Db) : Prop :=
  ∀ other, other ≠ orgId → db'.own other = db.own other

theorem OthersKept.refl (orgId : String) (db : Db) : OthersKept orgId db db := fun _ _ => rfl

theorem OthersKept.trans {orgId : String} {db₁ db₂ db₃ : Db} (h : OthersKept orgId db₁ db₂)
    (h' : OthersKept orgId db₂ db₃) : OthersKept orgId db₁ db₃ :=
  fun other hne => (h' other hne).trans (h other hne)

section Kept

variable {orgId : String} {db db' : Db} {id : String}

theorem Db.ClearInvoice.kept (h : db.ClearInvoice orgId id) (hkept : OthersKept orgId db db') :
    db'.ClearInvoice orgId id := fun i hi hne =>
  h i (Table.mem_of_restrict_eq (congrArg Db.invoices (hkept i.orgId hne)) hi (by simp)) hne

theorem Db.ClearItem.kept (h : db.ClearItem orgId id) (hkept : OthersKept orgId db db') :
    db'.ClearItem orgId id := fun i hi hne =>
  h i (Table.mem_of_restrict_eq (congrArg Db.lineItems (hkept i.orgId hne)) hi (by simp)) hne

theorem Db.ClearPayment.kept (h : db.ClearPayment orgId id) (hkept : OthersKept orgId db db') :
    db'.ClearPayment orgId id := fun p hp hne =>
  h p (Table.mem_of_restrict_eq (congrArg Db.payments (hkept p.orgId hne)) hp (by simp)) hne

end Kept

/-! ### Writes -/

/-- The write is one of the org, and meets no row of another one. -/
def Write.Apart (orgId : String) (db : Db) : Write → Prop
  | .insertInvoice invoice => invoice.orgId = orgId ∧ db.ClearInvoice orgId invoice.id
  | .updateInvoice _ current => db.ClearInvoice orgId current.id
  | .insertLineItem item => item.orgId = orgId ∧ db.ClearItem orgId item.id
  | .deleteLineItem id => db.ClearItem orgId id
  | .insertPayment payment => payment.orgId = orgId ∧ db.ClearPayment orgId payment.id

section Writes

variable {orgId : String} {db db' : Db} {write : Write} {now : DateTime}

theorem Write.Apart.kept (h : write.Apart orgId db) (hkept : OthersKept orgId db db') :
    write.Apart orgId db' := by
  cases write with
  | insertInvoice => exact ⟨h.1, h.2.kept hkept⟩
  | updateInvoice => exact Db.ClearInvoice.kept h hkept
  | insertLineItem => exact ⟨h.1, h.2.kept hkept⟩
  | deleteLineItem => exact Db.ClearItem.kept h hkept
  | insertPayment => exact ⟨h.1, h.2.kept hkept⟩

/-- A write of the org leaves the others their rows. -/
theorem Write.Apart.apply (h : write.Apart orgId db) (happly : write.apply now db = .ok db') :
    OthersKept orgId db db' := by
  intro other hne
  cases write with
  | insertInvoice invoice =>
    obtain ⟨t, ht, rfl⟩ := map_eq_ok happly
    have horg : invoice.orgId ≠ other := fun ho => hne (ho.symm.trans h.1)
    exact congrArg (Db.mk · _ _) (Table.restrict_of_insert ht (by simpa using horg))
  | insertLineItem item =>
    obtain ⟨t, ht, rfl⟩ := map_eq_ok happly
    have horg : item.orgId ≠ other := fun ho => hne (ho.symm.trans h.1)
    exact congrArg (Db.mk _ · _)
      (Table.restrict_of_insert ht (by simpa [InvoiceLineItem.stored] using horg))
  | insertPayment payment =>
    obtain ⟨t, ht, rfl⟩ := map_eq_ok happly
    have horg : payment.orgId ≠ other := fun ho => hne (ho.symm.trans h.1)
    exact congrArg (Db.mk _ _ ·) (Table.restrict_of_insert ht (by simpa using horg))
  | deleteLineItem id =>
    cases happly
    refine congrArg (Db.mk _ · _) (Table.restrict_of_delete fun row hrow ho => ?_)
    have hother : row.orgId = other := by simpa using ho
    simpa using h row hrow (hother ▸ hne)
  | updateInvoice loaded current =>
    obtain ⟨t, ht, rfl⟩ := map_eq_ok happly
    refine congrArg (Db.mk · _ _)
      (Table.restrict_of_modify ht (fun row => ?_) fun row hrow ho => ?_)
    · split <;> rfl
    · have hother : row.orgId = other := by simpa using ho
      exact if_neg (h row hrow (hother ▸ hne))

/-- A write of the org is one on the org's part of the tables. -/
theorem Write.own_apply (h : write.Apart orgId db) :
    (write.apply now db).map (Db.own orgId) = write.apply now (db.own orgId) := by
  cases write with
  | insertInvoice invoice =>
    refine Table.map_of_restrict (Table.restrict_insert _ (by simpa using h.1) fun i hi hp => ?_)
      fun _ => rfl
    have horg : i.orgId ≠ orgId := by simpa using hp
    simp [invoiceSchema, h.2 i hi horg, h.1, horg]
  | insertLineItem item =>
    refine Table.map_of_restrict (Table.restrict_insert _
      (by simpa [InvoiceLineItem.stored] using h.1) fun i hi hp => ?_) fun _ => rfl
    have horg : i.orgId ≠ orgId := by simpa using hp
    simpa [lineItemSchema, InvoiceLineItem.stored] using h.2 i hi horg
  | insertPayment payment =>
    refine Table.map_of_restrict (Table.restrict_insert _ (by simpa using h.1) fun p hp hq => ?_)
      fun _ => rfl
    have horg : p.orgId ≠ orgId := by simpa using hq
    simp [paymentSchema, h.2 p hp horg, h.1, horg]
  | deleteLineItem id =>
    exact congrArg (fun t => Except.ok (Db.mk _ t _)) (Table.restrict_delete db.lineItems _ _)
  | updateInvoice loaded current =>
    refine Table.map_of_restrict
      (Table.restrict_modify _ (fun i => ?_) (fun i j => ?_) fun i hi hp => ?_) fun _ => rfl
    · split <;> rfl
    · simp only [invoiceSchema]
      split_ifs <;> rfl
    · have horg : i.orgId ≠ orgId := by simpa using hp
      exact if_neg (h i hi horg)

/-- **A transaction of the org** is one on the org's part of the tables. -/
theorem Db.own_apply {writes : List Write} (h : ∀ write ∈ writes, write.Apart orgId db) :
    (db.apply now writes).map (Db.own orgId) = (db.own orgId).apply now writes := by
  induction writes generalizing db with
  | nil => rfl
  | cons write writes ih =>
    have hwrite := h write List.mem_cons_self
    have hown : (write.apply now db).map (Db.own orgId) = _ := Write.own_apply hwrite
    rw [Db.apply, Db.apply, List.foldlM_cons, List.foldlM_cons, ← hown]
    cases happly : write.apply now db with
    | error v => rfl
    | ok db' => exact ih fun w hw => (h w (List.mem_cons_of_mem _ hw)).kept (hwrite.apply happly)

/-- A transaction of the org leaves the others their rows. -/
theorem othersKept_apply {writes : List Write} (h : ∀ write ∈ writes, write.Apart orgId db)
    (happly : db.apply now writes = .ok db') : OthersKept orgId db db' := by
  induction writes generalizing db with
  | nil =>
    cases happly
    exact .refl orgId _
  | cons write writes ih =>
    obtain ⟨db₁, h₁, h₂⟩ := Db.apply_cons.mp happly
    have hkept := (h write List.mem_cons_self).apply h₁
    exact hkept.trans (ih (fun w hw => (h w (List.mem_cons_of_mem _ hw)).kept hkept) h₂)

end Writes

/-! ### Calls -/

/-- The call reads what is the org's, or what is every org's, and changes no row. -/
def Call.Within (orgId : String) : Call → Prop
  | .core c => c.Concerns "invoicing" orgId
  | .today | .buildPdf _ => True
  | .selectInvoice org _ | .selectLineItems org _ | .selectPaymentByKey org _
  | .selectPayments org _ | .countInvoices org _ | .selectInvoices org _ _ _ => org = orgId
  | .flush _ | .commit _ | .refreshInvoice _ | .refreshPayment _ => False

/-- The call is one of the org, and meets no row of another one. -/
def Call.Apart (orgId : String) (db : Db) : Call → Prop
  | .flush writes | .commit writes => ∀ write ∈ writes, write.Apart orgId db
  | .refreshInvoice id => db.ClearInvoice orgId id
  | .refreshPayment id => db.ClearPayment orgId id
  | c => c.Within orgId

theorem Call.Within.apart {orgId : String} {db : Db} {c : Call} (h : c.Within orgId) :
    c.Apart orgId db := by
  cases c with
  | flush | commit | refreshInvoice | refreshPayment => exact h.elim
  | _ => exact h

/-- An org finds the second state as the first one: its rows are all there are, and what Core keeps for
it is the same. -/
structure Sees (orgId : String) (w v : World) : Prop where
  db : v.db = w.db.own orgId
  core : OrgView "invoicing" orgId w.core v.core

section Answers

variable {orgId : String} {w v : World}

/-- A read is answered alike where it reads the same. -/
theorem Sees.read {α : Type} (h : Sees orgId w v) (fate : Core.Fate) {r r' : Except PyErr α}
    (hr : r' = r) : (fate.settle (r.map fun a => (a, w)) w).1 =
        (fate.settle (r'.map fun a => (a, v)) v).1 ∧
      Sees orgId (fate.settle (r.map fun a => (a, w)) w).2
        (fate.settle (r'.map fun a => (a, v)) v).2 := by
  subst hr
  cases r' with
  | error e =>
    rw [Except.map, Except.map, Core.Fate.settle_error, Core.Fate.settle_error]
    exact ⟨rfl, h⟩
  | ok a => cases fate <;> exact ⟨rfl, h⟩

/-- The listing of the org's invoices. -/
theorem listed_own (orgId : String) (statuses : Option (List String)) (db : Db) :
    listed orgId statuses (db.own orgId) = listed orgId statuses db :=
  Table.filter_restrict db.invoices fun _ _ hi =>
    Bool.and_elim_left (Bool.and_elim_left hi)

/-- **A call of the org** is answered as on the org's rows alone. -/
theorem Sees.answer (h : Sees orgId w v) {c : Call} (hc : c.Apart orgId w.db) (x : Choice) :
    (c.answer x w).1 = (c.answer x v).1 ∧ Sees orgId (c.answer x w).2 (c.answer x v).2 := by
  cases c with
  | core c =>
    obtain ⟨hreply, hview⟩ := h.core.answer hc x.toChoice
    exact ⟨hreply, h.db, hview⟩
  | today => exact ⟨rfl, h⟩
  | buildPdf elements => exact h.read x.fate rfl
  | selectInvoice org invoiceId =>
    obtain rfl : org = orgId := hc
    refine h.read x.fate (congrArg scalarOneOrNone ?_)
    rw [h.db]
    exact Table.filter_restrict w.db.invoices fun i _ hi =>
      Bool.and_elim_left (Bool.and_elim_left hi)
  | selectLineItems org invoiceId =>
    obtain rfl : org = orgId := hc
    refine h.read x.fate (congrArg (fun rows => Except.ok (orderBy _ _ x.tie rows)) ?_)
    rw [h.db]
    exact Table.filter_restrict w.db.lineItems fun i _ hi => Bool.and_elim_left hi
  | selectPaymentByKey org idempotencyKey =>
    obtain rfl : org = orgId := hc
    refine h.read x.fate (congrArg scalarOneOrNone ?_)
    rw [h.db]
    exact Table.filter_restrict w.db.payments fun p _ hp => Bool.and_elim_left hp
  | selectPayments org invoiceId =>
    obtain rfl : org = orgId := hc
    refine h.read x.fate (congrArg (fun rows => Except.ok (orderBy _ _ x.tie rows)) ?_)
    rw [h.db]
    exact Table.filter_restrict w.db.payments fun p _ hp => Bool.and_elim_left hp
  | countInvoices org statuses =>
    obtain rfl : org = orgId := hc
    refine h.read x.fate ?_
    rw [h.db, listed_own]
  | selectInvoices org statuses skip limit =>
    obtain rfl : org = orgId := hc
    refine h.read x.fate ?_
    rw [h.db, listed_own]
  | flush writes =>
    refine h.read x.fate ?_
    rw [h.db, ← Db.own_apply hc]
    cases w.db.apply x.now writes <;> rfl
  | commit writes =>
    simp only [Call.answer]
    rw [h.db, ← Db.own_apply hc]
    cases w.db.apply x.now writes with
    | error v =>
      simp only [Except.mapError, Except.map, Core.Fate.settle_error]
      exact ⟨trivial, h⟩
    | ok db =>
      have hafter : Sees orgId { w with db := db } { v with db := db.own orgId } := ⟨rfl, h.core⟩
      cases x.fate with
      | ok => exact ⟨rfl, hafter⟩
      | lost e => exact ⟨rfl, h⟩
      | late e => exact ⟨rfl, hafter⟩
  | refreshInvoice id =>
    refine h.read x.fate (congrArg refreshed ?_)
    rw [h.db]
    exact Table.find?_restrict w.db.invoices fun i hi hid => by
      by_contra horg
      exact hc i hi (by simpa using horg) (by simpa using hid)
  | refreshPayment id =>
    refine h.read x.fate (congrArg refreshed ?_)
    rw [h.db]
    exact Table.find?_restrict w.db.payments fun p hp hid => by
      by_contra horg
      exact hc p hp (by simpa using horg) (by simpa using hid)

/-- A call of the org leaves the others their rows. -/
theorem othersKept_answer {c : Call} (hc : c.Apart orgId w.db) (x : Choice) :
    OthersKept orgId w.db (c.answer x w).2.db := by
  by_cases hquiet : c.Quiet
  · rw [db_answer_of_quiet hquiet x w]
    exact .refl orgId w.db
  · cases c with
    | commit writes =>
      rcases answer_commit_cases writes x w with ⟨e, he⟩ | ⟨db, happly, he | ⟨e, he⟩⟩
      · rw [he]
        exact .refl orgId w.db
      · rw [he]
        exact othersKept_apply hc happly
      · rw [he]
        exact othersKept_apply hc happly
    | _ => exact (hquiet trivial).elim

/-- **The calls of the orgs do not interfere.** -/
theorem unwinds : Unwinds Call.answer (fun orgId c (_ : Choice) w => c.Apart orgId w.db) Sees where
  own hc h := h.answer hc _
  foreign {orgId other c x w v} hne hc h := by
    refine ⟨h.db.trans (othersKept_answer hc x orgId hne.symm).symm, ?_⟩
    rcases remote_answer c x w with hsame | ⟨c', rfl, hafter⟩
    · rw [hsame]
      exact h.core
    · rw [hafter]
      exact h.core.answer_other hc hne x.toChoice

end Answers

/-! ### The operations -/

/-- A call of one of the nine operations, with the values its request carries. -/
inductive ServiceCall where
  | create (userId : String) (body : InvoiceCreateRequest)
  | get (userId invoiceId : String)
  | list (userId : String) (statuses : Option (List String)) (skip limit : ℕ)
  | update (invoiceId userId : String) (body : InvoiceUpdateRequest)
  | softDelete (invoiceId userId : String)
  | send (invoiceId userId recipientEmail : String)
  | pay (invoiceId userId : String) (body : RecordPaymentRequest)
  | void (invoiceId userId reason : String)
  | payments (userId invoiceId : String)

/-- What an operation returns. -/
inductive Reply where
  | detail (invoice : Invoice) (lineItems : List InvoiceLineItem)
  | page (results : List (Invoice × List InvoiceLineItem)) (total : ℕ)
  | deleted
  | sent (invoice : Invoice) (email : EmailResult)
  | paid (invoice : Invoice) (payment : InvoicePayment)
  | voided (invoice : Invoice)
  | payments (payments : List InvoicePayment)
  deriving DecidableEq

/-- The call, for an org. -/
def ServiceCall.program (orgId : String) : ServiceCall → Prog Reply
  | create userId body => (createInvoice orgId userId body).bind fun r => .ret (.detail r.1 r.2)
  | get userId invoiceId => (getInvoice orgId userId invoiceId).bind fun r => .ret (.detail r.1 r.2)
  | list userId statuses skip limit =>
    (listInvoices orgId userId statuses skip limit).bind fun r => .ret (.page r.1 r.2)
  | update invoiceId userId body =>
    (updateInvoice orgId invoiceId userId body).bind fun r => .ret (.detail r.1 r.2)
  | softDelete invoiceId userId =>
    (softDeleteInvoice orgId invoiceId userId).bind fun _ => .ret .deleted
  | send invoiceId userId recipientEmail =>
    (sendInvoice orgId invoiceId userId recipientEmail).bind fun r => .ret (.sent r.1 r.2)
  | pay invoiceId userId body =>
    (recordPayment orgId invoiceId userId body).bind fun r => .ret (.paid r.1 r.2)
  | void invoiceId userId reason =>
    (voidInvoice orgId invoiceId userId reason).bind fun i => .ret (.voided i)
  | payments userId invoiceId =>
    (listPayments orgId userId invoiceId).bind fun ps => .ret (.payments ps)

/-- No row has the id. -/
structure Db.Unused (db : Db) (id : String) : Prop where
  invoices : ∀ i ∈ db.invoices.rows, i.id ≠ id
  lineItems : ∀ i ∈ db.lineItems.rows, i.id ≠ id
  payments : ∀ p ∈ db.payments.rows, p.id ≠ id

instance (db : Db) (id : String) : Decidable (db.Unused id) :=
  decidable_of_iff ((∀ i ∈ db.invoices.rows, i.id ≠ id) ∧ (∀ i ∈ db.lineItems.rows, i.id ≠ id) ∧
      ∀ p ∈ db.payments.rows, p.id ≠ id)
    ⟨fun h => ⟨h.1, h.2.1, h.2.2⟩, fun h => ⟨h.invoices, h.lineItems, h.payments⟩⟩

/-- Identifiers that are generated are new. -/
def NewIds : Call → Choice → World → Prop
  | .core .uuid4, x, w => w.db.Unused x.token
  | _, _, _ => True

instance decidableNewIds (c : Call) (x : Choice) (w : World) : Decidable (NewIds c x w) := by
  apply Call.casesOn (motive := fun c => Decidable (NewIds c x w)) c
  case core =>
    intro c
    apply Core.Call.casesOn (motive := fun c => Decidable (NewIds (.core c) x w)) c
    case uuid4 => exact inferInstanceAs (Decidable (w.db.Unused x.token))
    all_goals intros; exact .isTrue trivial
  all_goals intros; exact .isTrue trivial

/-- The setting of a program of the org: it meets no row of another one. What happens to the org's
own rows between its calls does not matter for that. -/
def isolating (orgId : String) : Contract Call Call.Resp PyErr Choice World where
  answer := Call.answer
  rely w w' := OthersKept orgId w.db w'.db
  admits := NewIds
  guar c _ w _ := c.Apart orgId w.db
  rely_refl w := .refl orgId w.db
  rely_trans h h' := h.trans h'

/-- From `w`, the rest of a program of the org meets no row of another one. -/
def Isolated {α : Type} (orgId : String) (p : Prog α) (w : World) : Prop :=
  (isolating orgId).wp p w fun _ _ => True

section Rules

variable {orgId invoiceId : String} {α β : Type} {w : World}

theorem Write.Apart.of_kept {writes : List Write} {db db' : Db}
    (h : ∀ write ∈ writes, write.Apart orgId db) (hkept : OthersKept orgId db db') :
    ∀ write ∈ writes, write.Apart orgId db' := fun write hwrite => (h write hwrite).kept hkept

theorem Call.Apart.kept {c : Call} {db db' : Db} (h : c.Apart orgId db)
    (hkept : OthersKept orgId db db') : c.Apart orgId db' := by
  cases c with
  | flush | commit => exact Write.Apart.of_kept h hkept
  | refreshInvoice => exact Db.ClearInvoice.kept h hkept
  | refreshPayment => exact Db.ClearPayment.kept h hkept
  | _ => exact h

/-- A part of a program that only reads. -/
theorem isolated_bind {p : Prog α} {f : α → Prog β} (hp : p.Calls (Call.Within orgId))
    (hf : ∀ a w', OthersKept orgId w.db w'.db → Isolated orgId (f a) w') :
    Isolated orgId (p.bind f) w :=
  wp_bind_of_calls (fun _ hc x _ _ => ⟨hc.apart, othersKept_answer hc.apart x⟩) hp p.returns_true
    (fun a w' hw _ => hf a w' hw) fun _ _ _ => trivial

theorem isolated_within {p : Prog α} (hp : p.Calls (Call.Within orgId)) : Isolated orgId p w :=
  wp_of_calls (fun _ hc x _ _ => ⟨hc.apart, othersKept_answer hc.apart x⟩) hp p.returns_true
    (fun _ _ _ _ => trivial) fun _ _ _ => trivial

/-- One call that meets no row of another org. -/
theorem isolated_call {c : Call} {f : c.Resp → Prog β} (hc : c.Apart orgId w.db)
    (hf : ∀ a w', OthersKept orgId w.db w'.db → Isolated orgId (f a) w') :
    Isolated orgId ((run c).bind f) w := by
  refine wp_bind (wp_perform fun w' hw x _ => ?_)
  have hapart : c.Apart orgId w'.db := hc.kept hw
  refine ⟨hapart, ?_⟩
  have hkept : OthersKept orgId w.db (c.answer x w').2.db :=
    OthersKept.trans hw (othersKept_answer hapart x)
  show (isolating orgId).next f _ (c.answer x w').1 (c.answer x w').2
  cases (c.answer x w').1 with
  | ok a => exact hf a _ hkept
  | error e => trivial

/-- A read that replies with what `spec` says of the rows. -/
theorem isolated_read {c : Call} {f : c.Resp → Prog β} (spec : Db → c.Resp → Prop)
    (hc : c.Within orgId) (hquiet : c.Quiet)
    (hspec : ∀ x w a, (c.answer x w).1 = .ok a → spec w.db a)
    (hf : ∀ a w', OthersKept orgId w.db w'.db → spec w'.db a → Isolated orgId (f a) w') :
    Isolated orgId ((run c).bind f) w := by
  refine wp_bind (wp_perform fun w' hw x _ => ⟨hc.apart, ?_⟩)
  have hdb : (c.answer x w').2.db = w'.db := db_answer_of_quiet hquiet x w'
  show (isolating orgId).next f _ (c.answer x w').1 (c.answer x w').2
  cases hr : (c.answer x w').1 with
  | ok a => exact hf a _ (hdb ▸ hw) (hdb ▸ hspec x w' a hr)
  | error e => trivial

/-- A pure check. -/
theorem isolated_ofExcept {x : Except PyErr α} {f : α → Prog β}
    (hf : ∀ a, x = .ok a → Isolated orgId (f a) w) :
    Isolated orgId ((Proc.ofExcept x).bind f) w := by
  cases x with
  | ok a => exact hf a rfl
  | error e => trivial

/-- A new identifier. -/
theorem isolated_uuid {f : String → Prog β}
    (hf : ∀ id w', OthersKept orgId w.db w'.db → w'.db.Unused id → Isolated orgId (f id) w') :
    Isolated orgId ((core (Core.run .uuid4)).bind f) w :=
  fun w' hw x hx => ⟨trivial, hf x.token w' hw hx⟩

theorem isolated_assoc {σ : Type} {p : Prog σ} {f : σ → Prog α} {g : α → Prog β}
    (h : Isolated orgId (p.bind fun a => (f a).bind g) w) :
    Isolated orgId ((p.bind f).bind g) w := by
  rw [Proc.bind_assoc]
  exact h

/-- What is done with the result does not matter. -/
theorem isolated_map {p : Prog α} (f : α → β) (hp : Isolated orgId p w) :
    Isolated orgId (p.bind fun a => .ret (f a)) w := by
  refine wp_bind (wp_mono (fun r w' _ => ?_) hp)
  cases r <;> trivial

/-- The invoice that was selected by org is the only one with its id. -/
theorem Loaded.clear {db : Db} {loaded : Invoice} (h : Loaded db orgId invoiceId loaded) :
    db.ClearInvoice orgId invoiceId := by
  rintro i hi hne rfl
  have hsame := invoice_eq_of_id db h.mem hi h.id
  exact hne (hsame ▸ h.orgId)

theorem isolated_load {f : Invoice → Prog β}
    (hf : ∀ loaded w', OthersKept orgId w.db w'.db → Loaded w'.db orgId invoiceId loaded →
      Isolated orgId (f loaded) w') : Isolated orgId ((loadInvoice orgId invoiceId).bind f) w := by
  refine isolated_assoc (isolated_read (fun db r => ∀ i, r = some i → Loaded db orgId invoiceId i)
    rfl trivial (fun x w r hr i hi => loaded_of_answer hr hi) fun r w' hw hr => ?_)
  cases r with
  | none => trivial
  | some loaded => exact hf loaded w' hw (hr loaded rfl)

/-- The line items that were selected by org are the only ones with their ids. -/
theorem isolated_loadItems {f : List InvoiceLineItem → Prog β}
    (hf : ∀ items w', OthersKept orgId w.db w'.db → (∀ i ∈ items, w'.db.ClearItem orgId i.id) →
      Isolated orgId (f items) w') :
    Isolated orgId ((loadLineItems orgId invoiceId).bind f) w := by
  refine isolated_read (fun db items => items.Perm (db.selectItems orgId invoiceId)) rfl trivial
    (fun _ _ _ h => perm_of_answer h) fun items w' hw hperm => ?_
  refine hf items w' hw fun i hi j hj hne hid => ?_
  obtain ⟨hmem, hsel⟩ := List.mem_filter.mp (hperm.subset hi)
  have hsame : j = i := w'.db.lineItems.eq_of_clash hj hmem (by simp [lineItemSchema, hid])
  rw [Bool.and_eq_true, beq_iff_eq, beq_iff_eq] at hsel
  exact hne (hsame ▸ hsel.1)

/-- The line items that are added have new ids. -/
theorem isolated_addLineItems {built : List InvoiceLineItem} (hbuilt : ∀ b ∈ built, b.orgId = orgId)
    {f : List InvoiceLineItem → Prog β} (hf : ∀ items w', OthersKept orgId w.db w'.db →
      (∀ i ∈ items, (Write.insertLineItem i).Apart orgId w'.db) → Isolated orgId (f items) w') :
    Isolated orgId ((addLineItems invoiceId built).bind f) w := by
  induction built generalizing w f with
  | nil => exact hf [] w (.refl orgId w.db) (by simp)
  | cons b built ih =>
    obtain ⟨hb, hrest⟩ := List.forall_mem_cons.mp hbuilt
    refine isolated_assoc (isolated_uuid fun id w₁ h₁ hid => ?_)
    refine isolated_assoc (ih hrest fun items w₂ h₂ hitems => hf _ w₂ (h₁.trans h₂) ?_)
    have hclear : w₁.db.ClearItem orgId id := fun i hi _ => hid.lineItems i hi
    exact List.forall_mem_cons.mpr ⟨⟨hb, hclear.kept h₂⟩, hitems⟩

/-- The inserts of line items. -/
theorem apart_inserts {items : List InvoiceLineItem} {db : Db}
    (h : ∀ i ∈ items, (Write.insertLineItem i).Apart orgId db) :
    ∀ write ∈ items.map Write.insertLineItem, write.Apart orgId db := by
  intro write hwrite
  obtain ⟨i, hi, rfl⟩ := List.mem_map.mp hwrite
  exact h i hi

theorem isolated_editLineItems {update : Write} {body : InvoiceUpdateRequest}
    {old : List InvoiceLineItem} (hupdate : update.Apart orgId w.db)
    (hold : ∀ i ∈ old, w.db.ClearItem orgId i.id) {f : List InvoiceLineItem × List Write → Prog β}
    (hf : ∀ edited w', OthersKept orgId w.db w'.db →
      (∀ write ∈ edited.2, write.Apart orgId w'.db) → Isolated orgId (f edited) w') :
    Isolated orgId ((editLineItems orgId invoiceId update body old).bind f) w := by
  unfold editLineItems
  cases body.lineItems with
  | none => exact hf (old, []) w (.refl orgId w.db) (by simp)
  | some items =>
    have hdeletes : ∀ write ∈ old.map fun item => Write.deleteLineItem item.id,
        write.Apart orgId w.db := by
      intro write hwrite
      obtain ⟨i, hi, rfl⟩ := List.mem_map.mp hwrite
      exact hold i hi
    show Isolated orgId ((replaceLineItems orgId invoiceId update items old).bind f) w
    refine isolated_assoc (isolated_call (List.forall_mem_cons.mpr ⟨hupdate, hdeletes⟩)
      fun _ w₁ h₁ => ?_)
    refine isolated_assoc (isolated_ofExcept fun built hbuilt => ?_)
    refine isolated_assoc (isolated_addLineItems (orgId_of_buildLineItems hbuilt)
      fun added w₂ h₂ hadded => ?_)
    have hwrites : ∀ write ∈ (old.map fun item => Write.deleteLineItem item.id) ++
        added.map .insertLineItem, write.Apart orgId w₂.db := by
      refine List.forall_mem_append.mpr ⟨?_, apart_inserts hadded⟩
      exact Write.Apart.of_kept hdeletes (h₁.trans h₂)
    refine isolated_assoc (isolated_call (List.forall_mem_cons.mpr
      ⟨hupdate.kept (h₁.trans h₂), hwrites⟩) fun _ w₃ h₃ => ?_)
    exact hf _ w₃ (h₁.trans (h₂.trans h₃)) (Write.Apart.of_kept hwrites h₃)

end Rules

/-! ### What each operation calls -/

section Operations

variable {orgId : String} {w : World}

/-- A program of Core about the org. -/
theorem within_core {α : Type} {p : Core.Prog α}
    (hp : p.Calls (Core.Call.Concerns "invoicing" orgId)) : (core p).Calls (Call.Within orgId) :=
  Calls.embed hp

theorem within_requireMutationRole (userId orgId : String) :
    (requireMutationRole userId orgId).Calls (Call.Within orgId) :=
  calls_requireMutationRole trivial

theorem within_requireMembership (userId orgId : String) :
    (requireMembership userId orgId).Calls (Call.Within orgId) := by
  refine Calls.bind (within_core (Calls.perform trivial)) fun found => ?_
  cases found <;> trivial

theorem within_loadInvoice (orgId invoiceId : String) :
    (loadInvoice orgId invoiceId).Calls (Call.Within orgId) := by
  refine Calls.bind (Calls.perform (c := Call.selectInvoice orgId invoiceId) rfl) fun found => ?_
  cases found <;> trivial

theorem within_loadLineItems (orgId invoiceId : String) :
    (loadLineItems orgId invoiceId).Calls (Call.Within orgId) :=
  Calls.perform (c := Call.selectLineItems orgId invoiceId) rfl

theorem within_logAudit (orgId actorId action resourceType resourceId : String) (metadata : Json) :
    (core (Core.logAudit orgId actorId action resourceType resourceId metadata)).Calls
      (Call.Within orgId) :=
  within_core (Core.concerns_logAudit "invoicing" orgId _ _ _ _ _)

/-- An audit event is the last thing of a mutation. -/
theorem isolated_logAudit {β : Type} (actorId action resourceType resourceId : String)
    (metadata : Json) (b : β) : Isolated orgId ((core (Core.logAudit orgId actorId action
      resourceType resourceId metadata)).bind fun _ => .ret b) w :=
  isolated_within ((within_logAudit orgId _ _ _ _ _).bind fun _ => trivial)

theorem isolated_createInvoice (userId : String) (body : InvoiceCreateRequest) :
    Isolated orgId (createInvoice orgId userId body) w := by
  refine isolated_bind (within_requireMutationRole _ _) fun _ w₁ h₁ => ?_
  refine isolated_bind (within_core (Core.concerns_getOrgSettings _ _)) fun orgSettings w₂ h₂ => ?_
  refine isolated_bind (within_core (Core.concerns_getNextInvoiceNumber _ _ _)) fun raw w₃ h₃ => ?_
  refine isolated_bind (Calls.perform trivial) fun today w₄ h₄ => ?_
  refine isolated_ofExcept fun number _ => ?_
  refine isolated_ofExcept fun built hbuilt => ?_
  refine isolated_ofExcept fun totals _ => ?_
  refine isolated_uuid fun id w₅ h₅ hid => ?_
  have hclear : w₅.db.ClearInvoice orgId id := fun i hi _ => hid.invoices i hi
  refine isolated_call (fun write hwrite => ?_) fun _ w₆ h₆ => ?_
  · obtain rfl := List.mem_singleton.mp hwrite
    exact ⟨rfl, hclear⟩
  refine isolated_addLineItems (orgId_of_buildLineItems hbuilt) fun items w₇ h₇ hitems => ?_
  have hclear₇ := hclear.kept (h₆.trans h₇)
  refine isolated_call (List.forall_mem_cons.mpr ⟨⟨rfl, hclear₇⟩, apart_inserts hitems⟩)
    fun _ w₈ h₈ => ?_
  refine isolated_call (hclear₇.kept h₈) fun _ w₉ h₉ => ?_
  exact isolated_logAudit _ _ _ _ _ _

theorem isolated_auditChanges {β : Type} (userId invoiceId : String) (body : InvoiceUpdateRequest)
    (b : β) :
    Isolated orgId ((auditChanges orgId userId invoiceId body).bind fun _ => .ret b) w := by
  refine isolated_within (Calls.bind ?_ fun _ => trivial)
  unfold auditChanges
  split
  · exact (within_logAudit orgId _ _ _ _ _).bind fun _ => trivial
  · trivial

theorem isolated_updateInvoice (invoiceId userId : String) (body : InvoiceUpdateRequest) :
    Isolated orgId (updateInvoice orgId invoiceId userId body) w := by
  refine isolated_bind (within_requireMutationRole _ _) fun _ w₁ h₁ => ?_
  refine isolated_load fun loaded w₂ h₂ hloaded => ?_
  refine isolated_ofExcept fun _ _ => ?_
  have hclear : w₂.db.ClearInvoice orgId loaded.id := hloaded.id ▸ hloaded.clear
  have hupdate : (Write.updateInvoice loaded (withFields body loaded)).Apart orgId w₂.db := hclear
  refine isolated_call (List.forall_mem_singleton.mpr hupdate) fun _ w₃ h₃ => ?_
  refine isolated_loadItems fun old w₄ h₄ hold => ?_
  refine isolated_editLineItems (hupdate.kept (h₃.trans h₄)) hold fun edited w₅ h₅ hwrites => ?_
  refine isolated_ofExcept fun current hcurrent => ?_
  have hkept : OthersKept orgId w₂.db w₅.db := h₃.trans (h₄.trans h₅)
  have hcurrentId : w₅.db.ClearInvoice orgId current.id := by
    rw [(sameInvoice_recompute hcurrent).id]
    exact hclear.kept hkept
  have hcommit : (Write.updateInvoice loaded current).Apart orgId w₅.db := hcurrentId
  refine isolated_call (List.forall_mem_cons.mpr ⟨hcommit, hwrites⟩) fun _ w₆ h₆ => ?_
  refine isolated_call (hloaded.clear.kept (hkept.trans h₆)) fun _ w₇ h₇ => ?_
  exact isolated_auditChanges _ _ _ _

theorem isolated_softDeleteInvoice (invoiceId userId : String) :
    Isolated orgId (softDeleteInvoice orgId invoiceId userId) w := by
  refine isolated_bind (within_requireMutationRole _ _) fun _ w₁ h₁ => ?_
  refine isolated_load fun loaded w₂ h₂ hloaded => ?_
  have hclear : w₂.db.ClearInvoice orgId loaded.id := hloaded.id ▸ hloaded.clear
  refine isolated_call (List.forall_mem_singleton.mpr hclear) fun _ w₃ h₃ => ?_
  exact isolated_logAudit _ _ _ _ _ _

theorem isolated_sendInvoice (invoiceId userId recipientEmail : String) :
    Isolated orgId (sendInvoice orgId invoiceId userId recipientEmail) w := by
  refine isolated_bind (within_requireMutationRole _ _) fun _ w₁ h₁ => ?_
  refine isolated_load fun loaded w₂ h₂ hloaded => ?_
  refine isolated_ofExcept fun _ _ => ?_
  have hclear : w₂.db.ClearInvoice orgId loaded.id := hloaded.id ▸ hloaded.clear
  refine isolated_bind (within_loadLineItems _ _) fun items w₃ h₃ => ?_
  refine isolated_bind (within_core (Core.concerns_getOrgSettings _ _)) fun orgSettings w₄ h₄ => ?_
  refine isolated_bind (Calls.perform trivial) fun pdfBytes w₅ h₅ => ?_
  refine isolated_bind (within_core (Core.concerns_uploadFile _ _ _ _ _ _ _)) fun stored w₆ h₆ => ?_
  refine isolated_bind (within_core (Core.concerns_sendEmail _ _ _ _ _ _ _ _ _))
    fun email w₇ h₇ => ?_
  have hkept : OthersKept orgId w₂.db w₇.db := h₃.trans (h₄.trans (h₅.trans (h₆.trans h₇)))
  refine isolated_call (List.forall_mem_singleton.mpr (hclear.kept hkept)) fun _ w₈ h₈ => ?_
  refine isolated_call (hloaded.clear.kept (hkept.trans h₈)) fun _ w₉ h₉ => ?_
  exact isolated_logAudit _ _ _ _ _ _

theorem within_findReplayed (orgId : String) (idempotencyKey : Option String) :
    (findReplayed orgId idempotencyKey).Calls (Call.Within orgId) := by
  unfold findReplayed
  split
  · trivial
  · next key _ => exact Calls.perform (c := Call.selectPaymentByKey orgId key) rfl

theorem isolated_recordPayment (invoiceId userId : String) (body : RecordPaymentRequest) :
    Isolated orgId (recordPayment orgId invoiceId userId body) w := by
  refine isolated_bind (within_requireMutationRole _ _) fun _ w₁ h₁ => ?_
  refine isolated_load fun loaded w₂ h₂ hloaded => ?_
  refine isolated_ofExcept fun _ _ => ?_
  refine isolated_bind (within_findReplayed _ _) fun replayed w₃ h₃ => ?_
  cases replayed with
  | some existing => trivial
  | none =>
    refine isolated_uuid fun id w₄ h₄ hid => ?_
    have hinvoice : w₄.db.ClearInvoice orgId invoiceId := hloaded.clear.kept (h₃.trans h₄)
    have hpayment : w₄.db.ClearPayment orgId id := fun p hp _ => hid.payments p hp
    have hloadedId : w₄.db.ClearInvoice orgId loaded.id := hloaded.id ▸ hinvoice
    have hupdate : (Write.updateInvoice loaded (withPayment loaded body.amountCents)).Apart orgId
        w₄.db := hloadedId
    have hinsert : (Write.insertPayment (newPayment id orgId invoiceId userId body)).Apart orgId
        w₄.db := ⟨rfl, hpayment⟩
    refine isolated_call (List.forall_mem_cons.mpr ⟨hupdate, List.forall_mem_singleton.mpr hinsert⟩)
      fun _ w₅ h₅ => ?_
    refine isolated_call (hinvoice.kept h₅) fun _ w₆ h₆ => ?_
    refine isolated_call (hpayment.kept (h₅.trans h₆)) fun _ w₇ h₇ => ?_
    exact isolated_logAudit _ _ _ _ _ _

theorem isolated_voidInvoice (invoiceId userId reason : String) :
    Isolated orgId (voidInvoice orgId invoiceId userId reason) w := by
  refine isolated_bind (within_requireMutationRole _ _) fun _ w₁ h₁ => ?_
  refine isolated_load fun loaded w₂ h₂ hloaded => ?_
  refine isolated_ofExcept fun _ _ => ?_
  have hclear : w₂.db.ClearInvoice orgId loaded.id := hloaded.id ▸ hloaded.clear
  refine isolated_call (List.forall_mem_singleton.mpr hclear) fun _ w₃ h₃ => ?_
  refine isolated_call (hloaded.clear.kept h₃) fun _ w₄ h₄ => ?_
  exact isolated_logAudit _ _ _ _ _ _

theorem isolated_getInvoice (userId invoiceId : String) :
    Isolated orgId (getInvoice orgId userId invoiceId) w := by
  refine isolated_within ((within_requireMembership _ _).bind fun _ => ?_)
  refine (within_loadInvoice _ _).bind fun invoice => ?_
  exact (within_loadLineItems _ _).bind fun _ => trivial

theorem isolated_listInvoices (userId : String) (statuses : Option (List String)) (skip limit : ℕ) :
    Isolated orgId (listInvoices orgId userId statuses skip limit) w := by
  refine isolated_within ((within_requireMembership _ _).bind fun _ => ?_)
  refine Calls.bind (Calls.perform (c := Call.countInvoices orgId statuses) rfl) fun total => ?_
  refine Calls.bind (Calls.perform (c := Call.selectInvoices orgId statuses skip limit) rfl)
    fun invoices => ?_
  refine Calls.bind (Calls.forEach fun results invoice => ?_) fun _ => trivial
  exact (within_loadLineItems _ _).bind fun _ => trivial

theorem isolated_listPayments (userId invoiceId : String) :
    Isolated orgId (listPayments orgId userId invoiceId) w := by
  refine isolated_within ((within_requireMembership _ _).bind fun _ => ?_)
  refine (within_loadInvoice _ _).bind fun _ => ?_
  exact Calls.perform (c := Call.selectPayments orgId invoiceId) rfl

end Operations

/-- No operation of an org meets a row of another one. -/
theorem isolated_program (orgId : String) (call : ServiceCall) (w : World) :
    Isolated orgId (call.program orgId) w := by
  cases call with
  | create userId body => exact isolated_map _ (isolated_createInvoice userId body)
  | get userId invoiceId => exact isolated_map _ (isolated_getInvoice userId invoiceId)
  | list userId statuses skip limit =>
    exact isolated_map _ (isolated_listInvoices userId statuses skip limit)
  | update invoiceId userId body =>
    exact isolated_map _ (isolated_updateInvoice invoiceId userId body)
  | softDelete invoiceId userId =>
    exact isolated_map _ (isolated_softDeleteInvoice invoiceId userId)
  | send invoiceId userId recipientEmail =>
    exact isolated_map _ (isolated_sendInvoice invoiceId userId recipientEmail)
  | pay invoiceId userId body => exact isolated_map _ (isolated_recordPayment invoiceId userId body)
  | void invoiceId userId reason =>
    exact isolated_map _ (isolated_voidInvoice invoiceId userId reason)
  | payments userId invoiceId => exact isolated_map _ (isolated_listPayments userId invoiceId)

/-! ### Runs -/

/-- A request of an org, and what the environment decides while it is served. -/
structure Demand where
  orgId : String
  call : ServiceCall
  oracle : Oracle Choice

/-- The request, as a turn of its org. -/
def Demand.turn (d : Demand) : Turn String Call Call.Resp PyErr Reply Choice :=
  ⟨d.orgId, d.call.program d.orgId, d.oracle⟩

/-- What requests of any orgs reply, served one after another, and what they leave. -/
def serveAll (ds : List Demand) (w : World) : List (String × Option (Except PyErr Reply)) × World :=
  serve Call.answer (ds.map Demand.turn) w

/-- The identifiers that are generated in a run are new. -/
def AllNewIds (ds : List Demand) (w : World) : Prop :=
  AlongTurns Call.answer (fun _ => NewIds) (ds.map Demand.turn) w

instance (ds : List Demand) (w : World) : Decidable (AllNewIds ds w) :=
  inferInstanceAs (Decidable (AlongTurns Call.answer (fun _ => NewIds) (ds.map Demand.turn) w))

/-- The deployment with an org's rows alone. -/
def World.own (orgId : String) (w : World) : World := { w with db := w.db.own orgId }

/-- The requests of an org alone, and its rows alone, are served as they are among others. -/
theorem serve_alone (ds : List Demand) {w : World} (hids : AllNewIds ds w) (orgId : String) :
    ((serveAll ds w).1.filter fun r => r.1 = orgId) =
        (serveAll (ds.filter fun d => d.orgId = orgId) (w.own orgId)).1 ∧
      Sees orgId (serveAll ds w).2 (serveAll (ds.filter fun d => d.orgId = orgId) (w.own orgId)).2 := by
  have hapart : AlongTurns Call.answer (fun org c (_ : Choice) w => c.Apart org w.db)
      (ds.map Demand.turn) w := by
    refine AlongTurns.imp hids fun t ht w hrun => ?_
    obtain ⟨d, _, rfl⟩ := List.mem_map.mp ht
    exact along_guar (K := isolating d.orgId) (isolated_program d.orgId d.call w) hrun
  have hsees : Sees orgId w (w.own orgId) := ⟨rfl, .refl _ _ _⟩
  obtain ⟨hreplies, hend⟩ := unwinds.serve_alone orgId hapart hsees
  have hturns : (ds.map Demand.turn).filter (fun t => t.party = orgId) =
      (ds.filter fun d => d.orgId = orgId).map Demand.turn := List.filter_map
  rw [hturns] at hreplies hend
  exact ⟨hreplies, hend⟩

/-- **Each org is served as if it were alone.** Leaving out every request of the other orgs, and every
row of theirs that was there before, changes neither what an org's requests reply nor the rows it is
left with, nor what Core keeps for it. -/
theorem serveAll_isolated (ds : List Demand) (w : World) (hids : AllNewIds ds w) (orgId : String) :
    ((serveAll ds w).1.filter fun r => r.1 = orgId) =
        (serveAll (ds.filter fun d => d.orgId = orgId) (w.own orgId)).1 ∧
      (serveAll (ds.filter fun d => d.orgId = orgId) (w.own orgId)).2.db =
        (serveAll ds w).2.db.own orgId ∧
      OrgView "invoicing" orgId (serveAll ds w).2.core
        (serveAll (ds.filter fun d => d.orgId = orgId) (w.own orgId)).2.core :=
  have h := serve_alone ds hids orgId
  ⟨h.1, h.2.db, h.2.core⟩

/-- What is an org's own is found again in what is. -/
theorem own_own (orgId : String) (db : Db) : (db.own orgId).own orgId = db.own orgId := by
  simp only [Db.own, Table.restrict_restrict]

/-- **An org does not notice the others.** In every run from the first request on, leaving out every
request of the other orgs changes neither what an org's requests reply nor the rows it is left with, nor what Core keeps for it. -/
theorem replies_without_others (ds : List Demand) (core : Core.World)
    (hids : AllNewIds ds ⟨core, .empty⟩) (orgId : String) :
    (serveAll (ds.filter fun d => d.orgId = orgId) ⟨core, .empty⟩).1 =
        ((serveAll ds ⟨core, .empty⟩).1.filter fun r => r.1 = orgId) ∧
      (serveAll (ds.filter fun d => d.orgId = orgId) ⟨core, .empty⟩).2.db.own orgId =
        (serveAll ds ⟨core, .empty⟩).2.db.own orgId ∧
      OrgView "invoicing" orgId (serveAll ds ⟨core, .empty⟩).2.core
        (serveAll (ds.filter fun d => d.orgId = orgId) ⟨core, .empty⟩).2.core := by
  have hempty : World.own orgId ⟨core, .empty⟩ = ⟨core, .empty⟩ := rfl
  obtain ⟨hreplies, hend⟩ := serve_alone ds hids orgId
  rw [hempty] at hreplies hend
  refine ⟨hreplies.symm, ?_, hend.core⟩
  rw [hend.db, own_own]

/-- Two orgs invoice and are paid a cent in turns, under one idempotency key. -/
def twoOrgs : List Demand :=
  let request (orgId : String) (call : ServiceCall) (token : String) : Demand :=
    ⟨orgId, call, fun n => some (.calm (token ++ toString n))⟩
  [request "acme" (.create "ada" hundredCents) "a",
    request "rival" (.create "bob" hundredCents) "b",
    request "acme" (.send "a4" "ada" "ada@example.com") "c",
    request "rival" (.send "b4" "bob" "bob@example.com") "d",
    request "rival" (.pay "b4" "bob" (payment 1 (some "key") Int.one_pos)) "e",
    request "acme" (.pay "a4" "ada" (payment 1 (some "key") Int.one_pos)) "f",
    request "rival" (.get "bob" "a4") "g", request "acme" (.list "ada" none 0 10) "h"]

set_option maxRecDepth 10000 in
theorem serveAll_isolated_two :
    ((serveAll twoOrgs ⟨.initial, .empty⟩).1.filter fun r => r.1 = "acme") =
        (serveAll (twoOrgs.filter fun d => d.orgId = "acme") ⟨.initial, Db.empty.own "acme"⟩).1 ∧
      (serveAll (twoOrgs.filter fun d => d.orgId = "acme") ⟨.initial, Db.empty.own "acme"⟩).2.db =
        (serveAll twoOrgs ⟨.initial, .empty⟩).2.db.own "acme" ∧
      OrgView "invoicing" "acme" (serveAll twoOrgs ⟨.initial, .empty⟩).2.core
        (serveAll (twoOrgs.filter fun d => d.orgId = "acme")
          ⟨.initial, Db.empty.own "acme"⟩).2.core :=
  serveAll_isolated twoOrgs ⟨.initial, .empty⟩ (by decide +kernel) "acme"

theorem replies_without_others_two :
    (serveAll (twoOrgs.filter fun d => d.orgId = "rival") ⟨.initial, .empty⟩).1 =
        ((serveAll twoOrgs ⟨.initial, .empty⟩).1.filter fun r => r.1 = "rival") ∧
      (serveAll (twoOrgs.filter fun d => d.orgId = "rival") ⟨.initial, .empty⟩).2.db.own "rival" =
        (serveAll twoOrgs ⟨.initial, .empty⟩).2.db.own "rival" ∧
      OrgView "invoicing" "rival" (serveAll twoOrgs ⟨.initial, .empty⟩).2.core
        (serveAll (twoOrgs.filter fun d => d.orgId = "rival") ⟨.initial, .empty⟩).2.core :=
  replies_without_others twoOrgs .initial (by decide +kernel) "rival"

end A2ZCore.Invoicing
