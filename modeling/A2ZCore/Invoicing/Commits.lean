import A2ZCore.Invoicing.Invariants
import A2ZCore.Lib.Commit

/-!
# Rejected operations

A mutation commits once, at its end. Whatever `update_invoice` has set, deleted and flushed by then is
in its session only, and the session is closed without a commit when the operation raises. What an
operation raises after its commit is what a call raised, or `AuditError`: none of the errors of
`invoicing.exceptions`. So an operation that raises one of those has committed nothing.

## Main definitions

* `InvoicingError` — the errors of `invoicing.exceptions`
* `Op.lineItems`, `Itemizes`, `Describes` — the line items of a request, and what its commit inserts

## Main results

* `commits_op` — a mutation commits at most once, what its request says, and closes
* `db_eq_of_rejected` — an operation that raises an `InvoicingError` leaves the database as it was
-/

namespace A2ZCore.Invoicing

open Interaction Interaction.Proc

/-! ### Errors -/

/-- `exceptions.InvoicingError` and its subclasses. -/
def InvoicingError (e : PyErr) : Prop :=
  e.cls ∈ [ErrClass.invoiceNotFoundError, .invoiceForbiddenError, .invalidStateTransitionError,
    .invoiceValidationError]

instance : DecidablePred InvoicingError := fun e => by unfold InvoicingError; infer_instance

/-- What the environment makes a call fail with is no `InvoicingError`. -/
def Foreign (x : Choice) : Prop :=
  ∀ e, x.fate = .lost e ∨ x.fate = .late e → ¬InvoicingError e

/-- A remote call fails on its own account, or as the environment decides. -/
theorem error_of_settle {α W : Type} {fate : Core.Fate} {effect : Except PyErr (α × W)} {w : W}
    {e : PyErr} (h : (fate.settle effect w).1 = .error e) :
    effect = .error e ∨ fate = .lost e ∨ fate = .late e := by
  cases fate with
  | lost e' => cases h; exact .inr (.inl rfl)
  | ok => cases effect <;> cases h; exact .inl rfl
  | late e' => cases effect <;> cases h <;> exact .inr (.inr rfl)

/-- A remote call that succeeds fails as the environment decides. -/
theorem error_of_settle_ok {α W : Type} {fate : Core.Fate} {a : α} {w w' : W} {e : PyErr}
    (h : (fate.settle (.ok (a, w')) w).1 = .error e) : fate = .lost e ∨ fate = .late e :=
  (error_of_settle h).resolve_left nofun

/-- Core's calls know nothing of invoices. -/
theorem error_of_core {c : Core.Call} {x : Core.Choice} {w : Core.World} {e : PyErr}
    (h : (c.answer x w).1 = .error e) :
    (x.fate = .lost e ∨ x.fate = .late e) ∨ ¬InvoicingError e := by
  cases c with
  | utcnow | uuid4 | appSettings | generatePresignedUrl | isConfigSetConfirmed
  | confirmConfigSet | secretCacheSet | brokerPublish => cases h
  | addInvoiceNumber orgId =>
    rcases error_of_settle h with heff | hfate
    · right
      revert heff
      unfold Core.addOne
      split
      · intro heff
        cases heff
      · next value _ =>
        cases hplus : Core.plusOne value with
        | ok sum =>
          intro heff
          cases heff
        | error e' =>
          intro heff
          cases heff
          obtain ⟨code, hcls⟩ := Core.plusOne_error hplus
          unfold InvoicingError
          rw [hcls]
          simp
    · exact .inl hfate
  | putEvents entry =>
    left
    simp only [Core.Call.answer] at h
    split at h
    · exact error_of_settle_ok h
    · exact error_of_settle_ok h
  | createConfigurationSet name =>
    rcases error_of_settle h with heff | hfate
    · right
      split at heff
      · cases heff
        decide
      · cases heff
    · exact .inl hfate
  | createEventDestination name topicArn =>
    rcases error_of_settle h with heff | hfate
    · right
      split at heff
      · cases heff
        decide
      · split at heff
        · cases heff
          decide
        · cases heff
    · exact .inl hfate
  | getSecretValue name =>
    rcases error_of_settle h with heff | hfate
    · right
      split at heff
      · cases heff
      · cases heff
        decide
    · exact .inl hfate
  | slideWindow key limit windowSeconds =>
    right
    simp only [Core.Call.answer] at h
    split at h
    · cases h
    · next e' he =>
      cases h
      simp only [Core.slideWindow] at he
      split at he
      · split at he
        · cases he
          decide
        · cases he
      · cases he
  | secretCacheGet key =>
    simp only [Core.Call.answer] at h
    split at h
    · cases h
    · split at h <;> cases h
  | _ => exact .inl (error_of_settle_ok h)

theorem not_invoicingError_violationErr (v : Relational.Violation) :
    ¬InvoicingError (violationErr v) := by
  cases v <;> decide

/-- No call of the service makes up an `InvoicingError`. -/
theorem error_of_answer {c : Call} {x : Choice} {w : World} {e : PyErr} (hx : Foreign x)
    (h : (c.answer x w).1 = .error e) : ¬InvoicingError e := by
  have hread : ∀ {α : Type} {r : Except PyErr α}, (∀ e, r = .error e → ¬InvoicingError e) →
      (x.fate.settle (r.map fun a => (a, w)) w).1 = .error e → ¬InvoicingError e := by
    intro α r hr h
    rcases error_of_settle h with heff | hfate
    · cases r with
      | error e' => cases heff; exact hr e rfl
      | ok a => cases heff
    · exact hx e hfate
  have hone : ∀ {α : Type} (rows : List α) (e : PyErr), scalarOneOrNone rows = .error e →
      ¬InvoicingError e := by
    intro α rows e h
    match rows, h with
    | _ :: _ :: _, h => cases h; decide
  have hrefreshed : ∀ {α : Type} (found : Option α) (e : PyErr), refreshed found = .error e →
      ¬InvoicingError e := by
    intro α found e h
    match found, h with
    | none, h => cases h; decide
  have happly : ∀ (writes : List Write) (e : PyErr),
      (w.db.apply x.now writes).mapError violationErr = .error e → ¬InvoicingError e := by
    intro writes e h
    cases hdb : w.db.apply x.now writes with
    | ok db => rw [hdb] at h; cases h
    | error v => rw [hdb] at h; cases h; exact not_invoicingError_violationErr v
  cases c with
  | core c =>
    rcases error_of_core h with hfate | hnot
    · exact hx e hfate
    · exact hnot
  | today => cases h
  | selectInvoice | selectPaymentByKey => exact hread (hone _) h
  | refreshInvoice | refreshPayment => exact hread (hrefreshed _) h
  | flush writes =>
    refine hread (fun e he => happly writes e ?_) h
    cases hdb : (w.db.apply x.now writes).mapError violationErr with
    | ok db => rw [hdb] at he; cases he
    | error e' => rw [hdb] at he; cases he; rfl
  | commit writes =>
    rcases error_of_settle h with heff | hfate
    · refine happly writes e ?_
      cases hdb : (w.db.apply x.now writes).mapError violationErr with
      | ok db => rw [hdb] at heff; cases heff
      | error e' => rw [hdb] at heff; cases heff; rfl
    · exact hx e hfate
  | _ =>
    refine hread ?_ h
    intro e he
    cases he

/-! ### What a commit inserts -/

/-- The line items of a request. -/
def Op.lineItems : Op → List LineItemCreate
  | .create _ _ body => body.lineItems
  | .update _ _ _ body => body.lineItems.getD []
  | _ => []

/-- The row holds what the request says of the item, and its amount. -/
structure Itemizes (item : LineItemCreate) (row : InvoiceLineItem) : Prop where
  description : row.description = item.description
  quantity : row.quantity = item.quantity
  unitPriceCents : row.unitPriceCents = item.unitPriceCents
  amountCents : computeLineAmountCents item.quantity item.unitPriceCents = .ok row.amountCents

/-- The write inserts no line item. -/
def Write.InsertsNoItem : Write → Prop
  | .insertLineItem _ => False
  | _ => True

/-- The commit inserts the line items of the request, in their order, after its other writes. -/
def Describes (op : Op) : Call → Prop
  | .commit writes => ∃ before items, writes = before ++ items.map .insertLineItem ∧
      (∀ write ∈ before, write.InsertsNoItem) ∧ List.Forall₂ Itemizes op.lineItems items
  | _ => False

theorem itemizes_buildLineItems {orgId : String} {body : List LineItemCreate}
    {built : List InvoiceLineItem} (h : buildLineItems orgId body = .ok built) :
    List.Forall₂ Itemizes body built := by
  induction body generalizing built with
  | nil => cases h; exact .nil
  | cons item items ih =>
    unfold buildLineItems at h
    cases hamount : computeLineAmountCents item.quantity item.unitPriceCents with
    | error e => rw [hamount] at h; cases h
    | ok amountCents =>
      cases hrest : buildLineItems orgId items with
      | error e => rw [hamount, hrest] at h; cases h
      | ok rest =>
        rw [hamount, hrest] at h
        cases h
        exact .cons ⟨rfl, rfl, rfl, hamount⟩ (ih hrest)

theorem Added.itemizes {invoiceId : String} {body : List LineItemCreate}
    {built items : List InvoiceLineItem} (h : Added invoiceId built items)
    (hbuilt : List.Forall₂ Itemizes body built) : List.Forall₂ Itemizes body items := by
  induction h generalizing body with
  | nil => exact hbuilt
  | cons hitem _ ih =>
    cases hbuilt with
    | cons hfirst hrest =>
      refine .cons ?_ (ih hrest)
      rw [hitem]
      exact ⟨hfirst.description, hfirst.quantity, hfirst.unitPriceCents, hfirst.amountCents⟩

/-! ### One commit, at the end -/

/-- A mutation commits what its request says, at most once, and closes. -/
abbrev CommitsOnce (op : Op) {α : Type} (p : Prog α) : Prop :=
  p.Commits Call.Quiet (Describes op) fun e => ¬InvoicingError e

/-- What follows a commit. -/
abbrev Closing {α : Type} (p : Prog α) : Prop := Closes Call.Quiet (fun e => ¬InvoicingError e) p

theorem closing_logAudit (orgId actorId action resourceType resourceId : String)
    (metadata : Json) :
    Closing (core (Core.logAudit orgId actorId action resourceType resourceId metadata)) where
  calls := calls_quiet_core _
  raises := by
    refine Raises.embed ?_
    refine (Raises.perform Core.Call.utcnow).bind fun now => ?_
    refine (Raises.perform Core.Call.uuid4).bind fun eventId => ?_
    refine Raises.bind ((Raises.perform _).handle fun e _ => ?_) fun _ => trivial
    show ¬InvoicingError ⟨.auditError, _⟩
    simp [InvoicingError]

theorem closing_auditChanges (orgId userId invoiceId : String) (body : InvoiceUpdateRequest) :
    Closing (auditChanges orgId userId invoiceId body) := by
  unfold auditChanges
  split
  · exact (closing_logAudit _ _ _ _ _ _).bind fun _ => .ret ()
  · exact .ret ()

section Operations

variable {op : Op} {α β : Type}

/-- What all mutations begin with. -/
theorem commitsOnce_load {orgId invoiceId userId : String} {f : Invoice → Prog β}
    (hf : ∀ loaded, CommitsOnce op (f loaded)) :
    CommitsOnce op ((requireMutationRole userId orgId).bind fun _ =>
      (loadInvoice orgId invoiceId).bind f) := by
  refine .bind (calls_quiet_requireMutationRole _ _) fun _ => .bind ?_ hf
  refine (Calls.perform trivial).bind fun found => ?_
  cases found <;> trivial

/-- The commit of a mutation without line items. -/
theorem commitsOnce_commit {writes : List Write} {f : Unit → Prog β} (hop : op.lineItems = [])
    (hwrites : ∀ write ∈ writes, write.InsertsNoItem) (hf : ∀ a, Closing (f a)) :
    CommitsOnce op ((run (.commit writes)).bind f) := by
  refine .perform_bind ⟨writes, [], by simp, hwrites, ?_⟩ hf
  rw [hop]
  exact .nil

theorem commits_create (orgId userId : String) (body : InvoiceCreateRequest) :
    CommitsOnce (.create orgId userId body) (createInvoice orgId userId body) := by
  refine .bind (calls_quiet_requireMutationRole _ _) fun _ => ?_
  refine .bind (calls_quiet_core _) fun orgSettings => ?_
  refine .bind (calls_quiet_core _) fun rawNumber => ?_
  refine .bind (Calls.perform trivial) fun today => ?_
  refine .ofExcept_bind fun number _ => ?_
  refine .ofExcept_bind fun built hbuilt => ?_
  refine .ofExcept_bind fun totals _ => ?_
  refine .bind (calls_quiet_core _) fun id => ?_
  refine .bind (Calls.perform trivial) fun _ => ?_
  refine .bind_of_returns (calls_quiet_addLineItems _ _) (returns_addLineItems _ _)
    fun items hadded => ?_
  refine .perform_bind ⟨[_], items, rfl, ?_, hadded.itemizes (itemizes_buildLineItems hbuilt)⟩
    fun _ => ?_
  · intro write hwrite
    rw [List.mem_singleton.mp hwrite]
    trivial
  · exact (Closes.perform trivial).bind fun _ => (closing_logAudit _ _ _ _ _ _).bind fun _ =>
      .ret _

/-- The writes that go with an update's line items. -/
theorem describes_editLineItems (orgId invoiceId : String) (update : Write)
    (body : InvoiceUpdateRequest) (old : List InvoiceLineItem) :
    (editLineItems orgId invoiceId update body old).Returns fun r => ∃ before items,
      r.2 = before ++ items.map .insertLineItem ∧ (∀ write ∈ before, write.InsertsNoItem) ∧
        List.Forall₂ Itemizes (body.lineItems.getD []) items := by
  unfold editLineItems
  cases body.lineItems with
  | none => exact ⟨[], [], rfl, by simp, .nil⟩
  | some new =>
    refine (Proc.returns_true _).bind fun _ _ => ?_
    refine (Returns.ofExcept fun built hbuilt => hbuilt).bind fun built hbuilt => ?_
    refine (returns_addLineItems _ _).bind fun items hadded => ?_
    refine (Proc.returns_true _).bind fun _ _ => ?_
    refine ⟨_, items, rfl, ?_, hadded.itemizes (itemizes_buildLineItems hbuilt)⟩
    intro write hwrite
    obtain ⟨item, _, rfl⟩ := List.mem_map.mp hwrite
    trivial

theorem commits_update (orgId invoiceId userId : String) (body : InvoiceUpdateRequest) :
    CommitsOnce (.update orgId invoiceId userId body)
      (updateInvoice orgId invoiceId userId body) := by
  refine commitsOnce_load fun loaded => ?_
  refine .ofExcept_bind fun _ _ => ?_
  refine .bind (Calls.perform trivial) fun _ => ?_
  refine .bind (Calls.perform trivial) fun old => ?_
  refine .bind_of_returns (calls_quiet_editLineItems _ _ _ _ _)
    (describes_editLineItems _ _ _ _ _) fun edited hedited => ?_
  refine .ofExcept_bind fun current _ => ?_
  obtain ⟨before, items, hwrites, hbefore, hitems⟩ := hedited
  refine .perform_bind ⟨_ :: before, items, by rw [hwrites]; rfl, ?_, hitems⟩ fun _ => ?_
  · exact List.forall_mem_cons.mpr ⟨trivial, hbefore⟩
  · exact (Closes.perform trivial).bind fun _ => (closing_auditChanges _ _ _ _).bind fun _ =>
      .ret _

theorem commits_softDelete (orgId invoiceId userId : String) :
    CommitsOnce (.softDelete orgId invoiceId userId)
      (softDeleteInvoice orgId invoiceId userId) := by
  refine commitsOnce_load fun loaded => commitsOnce_commit rfl (by simp [Write.InsertsNoItem]) ?_
  exact fun _ => (closing_logAudit _ _ _ _ _ _).bind fun _ => .ret _

theorem commits_send (orgId invoiceId userId recipientEmail : String) :
    CommitsOnce (.send orgId invoiceId userId recipientEmail)
      (sendInvoice orgId invoiceId userId recipientEmail) := by
  refine commitsOnce_load fun loaded => ?_
  refine .ofExcept_bind fun _ _ => ?_
  refine .bind (Calls.perform trivial) fun items => ?_
  refine .bind (calls_quiet_core _) fun orgSettings => ?_
  refine .bind (Calls.perform trivial) fun pdfBytes => ?_
  refine .bind (calls_quiet_core _) fun stored => ?_
  refine .bind (calls_quiet_core _) fun emailResult => ?_
  refine commitsOnce_commit rfl (by simp [Write.InsertsNoItem]) fun _ => ?_
  exact (Closes.perform trivial).bind fun _ => (closing_logAudit _ _ _ _ _ _).bind fun _ => .ret _

theorem commits_pay (orgId invoiceId userId : String) (body : RecordPaymentRequest) :
    CommitsOnce (.pay orgId invoiceId userId body)
      (recordPayment orgId invoiceId userId body) := by
  refine commitsOnce_load fun loaded => ?_
  refine .ofExcept_bind fun _ _ => ?_
  refine .bind (calls_quiet_findReplayed _ _) fun replayed => ?_
  cases replayed with
  | some existing => trivial
  | none =>
    refine .bind (calls_quiet_core _) fun id => ?_
    refine commitsOnce_commit rfl (by simp [Write.InsertsNoItem]) fun _ => ?_
    exact (Closes.perform trivial).bind fun _ => (Closes.perform trivial).bind fun _ =>
      (closing_logAudit _ _ _ _ _ _).bind fun _ => .ret _

theorem commits_void (orgId invoiceId userId reason : String) :
    CommitsOnce (.void orgId invoiceId userId reason)
      (voidInvoice orgId invoiceId userId reason) := by
  refine commitsOnce_load fun loaded => ?_
  refine .ofExcept_bind fun _ _ => ?_
  refine commitsOnce_commit rfl (by simp [Write.InsertsNoItem]) fun _ => ?_
  exact (Closes.perform trivial).bind fun _ => (closing_logAudit _ _ _ _ _ _).bind fun _ => .ret _

end Operations

/-- **A mutation commits at most once**: the line items its request describes, and after it nothing is
raised but what a call fails with. -/
theorem commits_op (op : Op) : CommitsOnce op op.prog := by
  cases op with
  | create orgId userId body => exact (commits_create orgId userId body).bind_ret ()
  | update orgId invoiceId userId body =>
    exact (commits_update orgId invoiceId userId body).bind_ret ()
  | softDelete orgId invoiceId userId => exact commits_softDelete orgId invoiceId userId
  | send orgId invoiceId userId recipientEmail =>
    exact (commits_send orgId invoiceId userId recipientEmail).bind_ret ()
  | pay orgId invoiceId userId body => exact (commits_pay orgId invoiceId userId body).bind_ret ()
  | void orgId invoiceId userId reason =>
    exact (commits_void orgId invoiceId userId reason).bind_ret ()

/-- **A rejected operation leaves no trace.** -/
theorem db_eq_of_rejected (op : Op) (o : Oracle Choice) (w w' : World) (e : PyErr)
    (hcalls : ∀ n x, o n = some x → Foreign x)
    (hrun : exec Call.answer op.prog o w = (some (.error e), w')) (he : InvoicingError e) :
    w'.db = w.db := by
  have ho : ErrorsIn Call.answer (fun e => ¬InvoicingError e) o :=
    fun n x hx c w e h => error_of_answer (hcalls n x hx) h
  exact (commits_op op).exec_error (fun c hc x w => db_answer_of_quiet hc x w) ho
    (not_not_intro he) hrun

/-- New line items, and a discount beyond them. -/
def tooMuchDiscount : InvoiceUpdateRequest where
  customerEmail := none
  customerName := some "Grace"
  customerCompany := none
  invoiceDate := none
  dueDate := none
  paymentTerms := none
  lineItems := some [⟨"Less work", ⟨1, 0⟩, 50, one_pos_coeff⟩]
  taxCents := none
  discountCents := some 51
  notes := none

/-- The update of a sent invoice that is rejected when its items are already replaced. -/
def rejectedUpdate : Request := .calm (.update "org" "c4" "ada" tooMuchDiscount) "u"

/-- How it ends. -/
def rejectedResult : Option (Except PyErr Unit) × World :=
  exec Call.answer rejectedUpdate.op.prog rejectedUpdate.oracle ⟨rejectedUpdate.core, sentDb⟩

theorem foreign_calm (token : String) : Foreign (.calm token) := by
  rintro e (h | h) <;> cases h

set_option maxRecDepth 10000 in
theorem db_eq_of_rejected_update :
    rejectedResult.1 = some (.error
        ⟨.invoiceValidationError, "discount_cents exceeds subtotal + tax"⟩) ∧
      rejectedResult.2.db = sentDb := by
  have herror : rejectedResult.1 = some (.error
      ⟨.invoiceValidationError, "discount_cents exceeds subtotal + tax"⟩) := by decide +kernel
  refine ⟨herror, ?_⟩
  refine db_eq_of_rejected rejectedUpdate.op rejectedUpdate.oracle
    ⟨rejectedUpdate.core, sentDb⟩ rejectedResult.2 _ ?_ (Prod.ext herror rfl) (by decide)
  intro n x hx
  cases hx
  exact foreign_calm _

end A2ZCore.Invoicing
