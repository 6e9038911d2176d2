import A2ZCore.Invoicing.Idempotency

/-!
# The payment that a request is answered with

`record_payment` looks up a payment by its org and its idempotency key, and answers with it as it
is. The request names an invoice and an amount as well, which the lookup does not compare: a key
that has been used for another invoice of the org, or for another amount, is answered with that payment,
and nothing is recorded.

## Main definitions

* `Answers` — the payment is the org's, on the invoice, and of the amount
* `Apt` — the org's payment with the request's key, if there is one, is that payment

## Main results

* `answered_iff` — after which runs a request is answered with a payment on its invoice
-/

namespace A2ZCore.Invoicing

open Interaction Interaction.Proc Interaction.Contract Relational

/-- The payment is one that the request is about. -/
structure Answers (orgId invoiceId : String) (body : RecordPaymentRequest) (p : InvoicePayment) :
    Prop where
  orgId : p.orgId = orgId
  invoiceId : p.invoiceId = invoiceId
  amountCents : p.amountCents = body.amountCents

/-- Whatever a request that succeeds returns is a payment that it is about. -/
def Answered (orgId invoiceId userId : String) (body : RecordPaymentRequest) (w : World) : Prop :=
  ∀ o i p w', exec Call.answer (recordPayment orgId invoiceId userId body) o w =
    (some (.ok (i, p)), w') → Answers orgId invoiceId body p

/-- The invoice is one that a payment can be recorded on. -/
def Payable (db : Db) (orgId invoiceId : String) : Prop :=
  ∃ i, Loaded db orgId invoiceId i ∧ i.status.isPayable

/-- The payments of the org with the request's key are on its invoice, and of its amount. -/
def Apt (db : Db) (orgId invoiceId : String) (body : RecordPaymentRequest) : Prop :=
  ∀ p ∈ db.payments.rows, p.orgId = orgId → p.idempotencyKey = body.idempotencyKey →
    p.invoiceId = invoiceId ∧ p.amountCents = body.amountCents

variable {orgId invoiceId userId : String} {body : RecordPaymentRequest} {w : World}

/-- A request that succeeds was made by someone who may. -/
theorem canMutate_of_yields {m : Core.Membership} {w' : World}
    (h : Yields Call.answer (requireMutationRole userId orgId) w m w') :
    CanMutate w.core userId orgId := by
  obtain ⟨m', w₁, hmember, h⟩ := Yields.bind_inv h
  obtain ⟨found, w₂, hget, hmember⟩ := Yields.bind_inv hmember
  replace hget : Yields Call.answer (core (Core.run (.getMembershipItem userId orgId))) w found
    w₂ := hget
  rw [core_run] at hget
  obtain ⟨x, hx⟩ := Yields.perform_inv hget
  have hreply : (x.fate.settle (.ok (w.core.memberships userId orgId, w.core)) w.core).1 =
      .ok found := congrArg Prod.fst hx
  obtain rfl : w.core.memberships userId orgId = found := by
    cases hfate : x.fate with
    | ok => rw [hfate] at hreply; exact Except.ok.inj hreply
    | lost e | late e => rw [hfate] at hreply; cases hreply
  cases hfound : w.core.memberships userId orgId with
  | none =>
    rw [hfound] at hmember
    obtain ⟨o, ho⟩ := hmember
    cases ho
  | some membership =>
    rw [hfound] at hmember
    obtain ⟨rfl, rfl⟩ := Yields.ret_inv hmember
    replace h : Yields Call.answer (if membership.role ∈ mutationRoles then .ret membership
      else fail .invoiceForbiddenError "Requires owner or admin role") w₂ m w' := h
    split at h
    · next hrole => exact ⟨membership, hfound, hrole⟩
    · obtain ⟨o, ho⟩ := h
      cases ho

/-- What a request that succeeds says about the state it is made in. -/
theorem answers_of_apt {o : Oracle Choice} {i : Invoice} {p : InvoicePayment} {w' : World}
    (hrun : exec Call.answer (recordPayment orgId invoiceId userId body) o w =
      (some (.ok (i, p)), w'))
    (h : CanMutate w.core userId orgId → Payable w.db orgId invoiceId →
      truthy body.idempotencyKey ≠ none → Apt w.db orgId invoiceId body) :
    Answers orgId invoiceId body p := by
  have hsucceeded := succeeded_of_exec hrun
  obtain ⟨_, _, hrole, _⟩ := Yields.bind_inv ⟨o, hrun⟩
  rcases hsucceeded.answers with ⟨hkey, hmem⟩ | ⟨hinvoice, hamount⟩
  · have hapt := h (canMutate_of_yields hrole) hsucceeded.payable hkey
    obtain ⟨hinvoice, hamount⟩ := hapt p hmem hsucceeded.recorded.orgId hsucceeded.recorded.key
    exact ⟨hsucceeded.recorded.orgId, hinvoice, hamount⟩
  · exact ⟨hsucceeded.recorded.orgId, hinvoice, hamount⟩

/-- A request whose key is that of a payment is answered with it. -/
theorem exists_run_of_key {p : InvoicePayment} (hrole : CanMutate w.core userId orgId)
    (hpayable : Payable w.db orgId invoiceId) (hkey : truthy body.idempotencyKey ≠ none)
    (hp : Recorded w.db orgId body.idempotencyKey p) :
    ∃ o i w', exec Call.answer (recordPayment orgId invoiceId userId body) o w =
      (some (.ok (i, p)), w') := by
  obtain ⟨i, hi, hstatus⟩ := hpayable
  obtain ⟨key, hsome⟩ := Option.ne_none_iff_exists'.mp hkey
  obtain ⟨hbody, hne⟩ := Option.filter_eq_some_iff.mp hsome
  rw [hbody] at hp
  obtain ⟨r, w', hexec, rfl⟩ := exec_of_calm (o := fun n => some (.calm (toString n)))
    (wp_replay hp hbody (by simpa using hne) hi hstatus hrole) fun _ => ⟨_, rfl, rfl⟩
  exact ⟨_, i, w', hexec⟩

/-- **A request is answered with a payment on its invoice and of its amount**, after any run,
exactly when its key is not that of another payment, or it is refused. -/
theorem answered_iff (rs : List Request) (core : Core.World) (orgId invoiceId userId : String)
    (body : RecordPaymentRequest) :
    Answered orgId invoiceId userId body ⟨core, runAll Db.empty rs⟩ ↔
      (CanMutate core userId orgId → Payable (runAll Db.empty rs) orgId invoiceId →
        truthy body.idempotencyKey ≠ none → Apt (runAll Db.empty rs) orgId invoiceId body) := by
  constructor
  · intro h hrole hpayable hkey p hmem horg hpkey
    obtain ⟨o, i, w', hrun⟩ := exists_run_of_key (w := ⟨core, runAll Db.empty rs⟩) hrole hpayable
      hkey ⟨hmem, horg, hpkey⟩
    have hanswers := h o i p w' hrun
    exact ⟨hanswers.invoiceId, hanswers.amountCents⟩
  · intro h o i p w' hrun
    exact answers_of_apt hrun h

/-- A first invoice is paid under a key, and a second one is sent. -/
def twoInvoices : List Request :=
  createSendPay.take 2 ++ [.calm (.pay "org" "c4" "ada" (payForty "key")) "p",
    { Request.calm (.create "org" "ada" hundredCents) "d" with
      core := { Core.World.initial with
        settings := fun _ => some [("next_invoice_number", .int 1)] } },
    .calm (.send "org" "d4" "ada" "ada@example.com") "e"]

/-- The key of the first payment is used for the second invoice. -/
theorem not_answered : ¬ ∀ (rs : List Request) (core : Core.World)
    (orgId invoiceId userId : String) (body : RecordPaymentRequest),
    Answered orgId invoiceId userId body ⟨core, runAll Db.empty rs⟩ := by
  intro h
  have hpayable : (runAll Db.empty twoInvoices).invoices.rows.any (fun i => i.orgId == "org" &&
      i.id == "d4" && !i.isDeleted && i.status.isPayable) = true := by decide +kernel
  have hrecorded : fortyCents "p3" "key" ∈ (runAll Db.empty twoInvoices).payments.rows := by
    decide +kernel
  obtain ⟨i, hi, hstatus⟩ := List.any_eq_true.mp hpayable
  simp only [Bool.and_eq_true, beq_iff_eq, Bool.not_eq_true'] at hstatus
  obtain ⟨o, j, w', hrun⟩ : ∃ o j w', exec Call.answer
      (recordPayment "org" "d4" "ada" (payForty "key")) o ⟨.initial, runAll Db.empty twoInvoices⟩ =
        (some (.ok (j, fortyCents "p3" "key")), w') :=
    exists_run_of_key ⟨_, rfl, List.mem_cons_self⟩
      ⟨i, ⟨hi, hstatus.1.1.1, hstatus.1.1.2, hstatus.1.2⟩, hstatus.2⟩ (by decide)
      ⟨hrecorded, rfl, rfl⟩
  exact absurd (h twoInvoices .initial "org" "d4" "ada" (payForty "key") o j _ w' hrun).invoiceId
    (by decide)

end A2ZCore.Invoicing
